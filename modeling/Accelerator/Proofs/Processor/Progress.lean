import Accelerator.Proofs.Processor.Moves
import Accelerator.Proofs.Ring.Ledger

/-!
# The progress of a command processor

A command processor works on the packet at the read index, completes it, and goes on to the next.
What it has done so far is a log of deeds. When the first packets have been completed, the log is
made of what was done with each of them, one after another, and then of what has been done with the
packet at the read index; nothing else is in it.

What a step adds to the log follows from what the processor is doing, and from what the ledger says
of the packet at the read index.

## One list

That packets are processed in order, each of them once, and nothing else is done, is one equation of
lists: the log is what was done with each packet before the read index, one after another, and a
rest. `Queue.Phase` is the rest. Each of its cases goes with certain states of the processor, so a
step of the processor leaves no more than one or two cases to look at.

## Main definitions

* `Parcel.Work`, `Ledger.Completed`: what a processor does with a packet, and with all packets
  before an index.
* `Queue.Phase`: how far it has come with the packet at the read index.
* `Queue.Stands`: the processor of a queue has come so far.

## Main results

* `Queue.Stands.of_failed`: what is known once a packet has failed.
* `Queue.Stands.moved`: a step of the processor.
-/

namespace Accelerator

open Session

variable {s t : Session} {l m : Ledger} {q : Queue} {p : Processor} {r : Nat}

/-! ### What a processor does with packets -/

/-- What a processor does with a packet before it is completed: the kernel of a kernel dispatch is
run, unless there are no work-items; nothing else is. -/
inductive Parcel.Work (parcel : Parcel) (i : Nat) : List Deed → Prop where
  | nothing (nothing : parcel.header.type? = some .kernelDispatch →
      parcel.slot.dispatch.isEmpty = true) : Work parcel i []
  | ran {launch : Launch} (type : parcel.header.type? = some .kernelDispatch)
      (planned : ∃ info kernels memory,
        parcel.slot.dispatch.plan parcel.companion info kernels memory = .launch launch) :
      Work parcel i [.ran (.ofNat i) launch]

theorem Parcel.Work.index_eq {parcel : Parcel} {i : Nat} {work : List Deed}
    (worked : parcel.Work i work) {deed : Deed} (listed : deed ∈ work) : deed.index = .ofNat i := by
  cases worked with
  | nothing => cases listed
  | ran =>
    cases List.mem_singleton.mp listed
    rfl

namespace Ledger

/-- A log of the packets before an index: each was worked on and completed, one after another. -/
def Completed (l : Ledger) (r : Nat) (log : List Deed) : Prop :=
  ∃ deeds : Nat → List Deed, log = (List.range r).flatMap deeds ∧
    ∀ i < r, ∃ parcel work, l.stage i = .published parcel ∧ parcel.Work i work ∧
      deeds i = work ++ [.completed (.ofNat i) parcel.slot.completion?]

/-- A processor is not at work on the packet of an index; if it holds a barrier, that is the
packet. -/
def Idle (l : Ledger) (i : Nat) : ProcessorState → Prop
  | .ready | .idle | .stopped | .crashed => True
  | .held b => ∃ parcel, l.stage i = .published parcel ∧
      parcel.header.type? ≠ some .kernelDispatch ∧ b.completion = parcel.slot.completion?
  | .finishing _ => False

/-- What was published stays published. -/
def Extends (m l : Ledger) : Prop :=
  ∀ i parcel, l.stage i = .published parcel → m.stage i = .published parcel

variable {log : List Deed}

theorem completed_zero (l : Ledger) : l.Completed 0 [] :=
  ⟨fun _ => [], rfl, by simp⟩

theorem Completed.next (done : l.Completed r log) {parcel : Parcel} {work : List Deed}
    (published : l.stage r = .published parcel) (worked : parcel.Work r work) :
    l.Completed (r + 1) (log ++ (work ++ [.completed (.ofNat r) parcel.slot.completion?])) := by
  obtain ⟨deeds, rfl, each⟩ := done
  refine ⟨Function.update deeds r (work ++ [.completed (.ofNat r) parcel.slot.completion?]), ?_,
    fun i hi => ?_⟩
  · rw [List.range_succ, List.flatMap_append, List.flatMap_singleton, Function.update_self]
    refine congrArg (· ++ _) (List.flatMap_congr fun i hi => ?_)
    rw [Function.update_of_ne (List.mem_range.mp hi).ne]
  · rcases Nat.lt_succ_iff_lt_or_eq.mp hi with earlier | rfl
    · rw [Function.update_of_ne earlier.ne]
      exact each i earlier
    · exact ⟨parcel, work, published, worked, Function.update_self ..⟩

theorem Completed.extend (done : l.Completed r log) (more : m.Extends l) : m.Completed r log := by
  obtain ⟨deeds, same, each⟩ := done
  refine ⟨deeds, same, fun i hi => ?_⟩
  obtain ⟨parcel, work, published, rest⟩ := each i hi
  exact ⟨parcel, work, more i parcel published, rest⟩

theorem Completed.index_lt (done : l.Completed r log) (fits : r < 2 ^ 64) {deed : Deed}
    (listed : deed ∈ log) : deed.index.toNat < r := by
  obtain ⟨deeds, rfl, each⟩ := done
  obtain ⟨i, hi, listed⟩ := List.mem_flatMap.mp listed
  have below := List.mem_range.mp hi
  obtain ⟨parcel, work, -, worked, same⟩ := each i below
  have index : deed.index = .ofNat i := by
    rw [same] at listed
    rcases List.mem_append.mp listed with before | last
    · exact worked.index_eq before
    · cases List.mem_singleton.mp last
      rfl
  rw [index, UInt64.toNat_ofNat_of_lt' (below.trans fits)]
  exact below

/-- No packet that was completed has failed. -/
theorem Completed.not_failed (done : l.Completed r log) (i : UInt64) (cause : Fault) :
    .failed i cause ∉ log := by
  obtain ⟨deeds, rfl, each⟩ := done
  intro mem
  obtain ⟨j, hj, listed⟩ := List.mem_flatMap.mp mem
  obtain ⟨parcel, work, -, worked, same⟩ := each j (List.mem_range.mp hj)
  rw [same] at listed
  cases worked <;> simp at listed

theorem Idle.extend {i : Nat} {state : ProcessorState} (idle : l.Idle i state)
    (more : m.Extends l) : m.Idle i state := by
  cases state with
  | ready | idle | stopped | crashed | finishing => exact idle
  | held b =>
    obtain ⟨parcel, published, rest⟩ := idle
    exact ⟨parcel, more i parcel published, rest⟩

end Ledger

/-- How far a processor has come with the packet at the read index: what was done with it, and what
the application was told. -/
inductive Queue.Phase (q : Queue) (l : Ledger) (i : Nat) : List Deed → List Notice → Prop where
  | waiting (idle : ∀ p, q.processor = some p → l.Idle i p.state) : Phase q l i [] []
  | working {parcel : Parcel} {work : List Deed} (published : l.stage i = .published parcel)
      (busy : q.processor = some ⟨.ofNat i, .finishing parcel.slot.completion?⟩)
      (worked : parcel.Work i work) : Phase q l i work []
  | failed {parcel : Parcel} {work : List Deed} {cause : Fault}
      (published : l.stage i = .published parcel) (ended : q.isActive = false)
      (stopped : ∀ p, q.processor = some p → p.state = .stopped)
      (worked : work = [] ∨ parcel.Work i work) :
      Phase q l i (work ++ [.failed (.ofNat i) cause])
        (if q.notifies then [⟨q.handle, cause⟩] else [])

namespace Queue

variable {i : Nat} {tail : List Deed} {told : List Notice}

namespace Phase

theorem extend (phase : q.Phase l i tail told) (more : m.Extends l) : q.Phase m i tail told := by
  cases phase with
  | waiting idle => exact .waiting fun p hp => (idle p hp).extend more
  | working published busy worked => exact .working (more _ _ published) busy worked
  | failed published ended stopped worked => exact .failed (more _ _ published) ended stopped worked

/-- Filling and publishing slots does not concern the processor. -/
theorem modifyRing (phase : q.Phase l i tail told) (f : PacketRing → PacketRing) :
    (q.modifyRing f).Phase l i tail told := by
  cases phase with
  | waiting idle => exact .waiting idle
  | working published busy worked => exact .working published busy worked
  | failed published ended stopped worked => exact .failed published ended stopped worked

/-- Ending reservations does not concern the processor. -/
theorem inactivate (phase : q.Phase l i tail told) : q.inactivate.Phase l i tail told := by
  have ended := inactivate_isActive q
  rw [Queue.inactivate] at ended ⊢
  split
  case isFalse => exact phase
  case isTrue active =>
    cases phase with
    | waiting idle => exact .waiting idle
    | working published busy worked => exact .working published busy worked
    | failed published was => cases was.symm.trans active

/-- Destroying a queue ends its processor, which has no packet at work. -/
theorem destroy (phase : q.Phase l i tail told)
    (settled : ∀ index completion, q.processor ≠ some ⟨index, .finishing completion⟩) :
    q.destroy.Phase l i tail told := by
  cases phase with
  | waiting => exact .waiting fun _ => nofun
  | working published busy => exact absurd busy (settled _ _)
  | failed published _ _ worked => exact .failed published rfl (fun _ => nofun) worked

/-- Nothing was done with another packet, and the packet is not complete. -/
theorem index_eq (phase : q.Phase l i tail told) {deed : Deed} (listed : deed ∈ tail) :
    deed.index = .ofNat i ∧ ∀ index signal, deed ≠ .completed index signal := by
  have working : ∀ {parcel : Parcel} {work : List Deed}, parcel.Work i work → deed ∈ work →
      deed.index = .ofNat i ∧ ∀ index signal, deed ≠ .completed index signal := by
    intro parcel work worked listed
    refine ⟨worked.index_eq listed, ?_⟩
    cases worked with
    | nothing => cases listed
    | ran =>
      cases List.mem_singleton.mp listed
      exact fun _ _ => nofun
  cases phase with
  | waiting => cases listed
  | working _ _ worked => exact working worked listed
  | failed _ _ _ worked =>
    rcases List.mem_append.mp listed with before | last
    · rcases worked with rfl | worked
      · cases before
      · exact working worked before
    · cases List.mem_singleton.mp last
      exact ⟨rfl, fun _ _ => nofun⟩

/-- What is known of a packet that has failed. -/
theorem of_failed (phase : q.Phase l i tail told) {index : UInt64} {cause : Fault}
    (listed : .failed index cause ∈ tail) :
    index = .ofNat i ∧ (l.stage i).IsPublished ∧ q.isActive = false ∧
      (∀ p, q.processor = some p → p.state = .stopped) ∧
      told = if q.notifies then [⟨q.handle, cause⟩] else [] := by
  cases phase with
  | waiting => cases listed
  | working published busy worked => cases worked <;> simp at listed
  | @failed parcel work actual published ended stopped worked =>
    have same : index = .ofNat i ∧ cause = actual := by
      rcases worked with rfl | ⟨-⟩ | ⟨-, -⟩ <;> simpa using listed
    obtain ⟨rfl, rfl⟩ := same
    exact ⟨rfl, by rw [published]; trivial, ended, stopped, rfl⟩

end Phase

/-- The processor of a queue has completed the packets before the read index, one after another. -/
structure Stands (q : Queue) (l : Ledger) (r : Nat) (log : List Deed) (told : List Notice) :
    Prop where
  tracks : l.Tracks q.ring r
  index : ∀ p, q.processor = some p → p.index = .ofNat r
  history : ∃ done tail, log = done ++ tail ∧ l.Completed r done ∧ q.Phase l r tail told

/-- A queue is as another but for its ring, its state and its processor. -/
structure Like (q q' : Queue) : Prop where
  handle : q'.handle = q.handle
  agent : q'.agent = q.agent
  notifies : q'.notifies = q.notifies

theorem Like.trans {q' q'' : Queue} (first : q.Like q') (second : q'.Like q'') : q.Like q'' where
  handle := second.handle.trans first.handle
  agent := second.agent.trans first.agent
  notifies := second.notifies.trans first.notifies

theorem like_inactivate (q : Queue) : q.Like q.inactivate := by
  rw [inactivate]
  split <;> exact ⟨rfl, rfl, rfl⟩

namespace Stands

variable {log : List Deed}

/-- A producer's step does not concern the processor. -/
theorem modifyRing (stands : q.Stands l r log told) {f : PacketRing → PacketRing}
    (tracks : m.Tracks (f q.ring) r) (more : m.Extends l) :
    (q.modifyRing f).Stands m r log told := by
  obtain ⟨-, index, done, tail, same, completed, phase⟩ := stands
  exact ⟨tracks, index, done, tail, same, completed.extend more, (phase.extend more).modifyRing f⟩

theorem inactivate (stands : q.Stands l r log told) : q.inactivate.Stands l r log told := by
  obtain ⟨tracks, index, done, tail, same, completed, phase⟩ := stands
  refine ⟨inactivate_ring q ▸ tracks, ?_, done, tail, same, completed, phase.inactivate⟩
  · rw [Queue.inactivate]
    split <;> exact index

/-- What is known once a packet has failed. -/
theorem of_failed (stands : q.Stands l r log told) {index : UInt64} {cause : Fault}
    (listed : .failed index cause ∈ log) :
    index = .ofNat r ∧ (l.stage r).IsPublished ∧ q.isActive = false ∧
      (∀ p, q.processor = some p → p.state = .stopped) ∧
      told = if q.notifies then [⟨q.handle, cause⟩] else [] := by
  obtain ⟨-, -, done, tail, rfl, completed, phase⟩ := stands
  rcases List.mem_append.mp listed with before | last
  · exact absurd before (completed.not_failed index cause)
  · exact phase.of_failed last

theorem destroy (stands : q.Stands l r log told)
    (settled : ∀ index completion, q.processor ≠ some ⟨index, .finishing completion⟩) :
    q.destroy.Stands l r log told := by
  obtain ⟨tracks, -, done, tail, same, completed, phase⟩ := stands
  exact ⟨tracks, fun _ => nofun, done, tail, same, completed, phase.destroy settled⟩

end Stands

end Queue

/-! ### Steps of the processor -/

/-- What a step of the processor leaves: the queue with its processor one step on, and what the
application has been told in addition. -/
def Queue.Moved (q : Queue) (l : Ledger) (log : List Deed) (told : List Notice) (s t : Session) :
    Prop :=
  ∃ q' r new, t.queues.get? q.handle = some q' ∧ q.Like q' ∧
    t.told q.handle = s.told q.handle ++ new ∧ q'.Stands l r log (told ++ new)

namespace Queue.Stands

variable {log done tail : List Deed} {told : List Notice}

/-- The processor does something else. -/
theorem moved_set {u : Session} {state : ProcessorState} (tracks : l.Tracks q.ring r)
    (index : p.index = .ofNat r) (live : u.queues.get? q.handle = some q)
    (notices : u.notices = s.notices) (completed : l.Completed r done)
    (phase : (q.setProcessor { p with state }).Phase l r tail told) :
    q.Moved l (done ++ tail) told s (u.setProcessor q { p with state }) := by
  refine ⟨q.setProcessor { p with state }, r, [], ?_, ⟨rfl, rfl, rfl⟩, ?_, tracks, ?_, ?_⟩
  · rw [get?_setProcessor, live, Option.map_some]
  · exact (told_congr notices _).trans (List.append_nil _).symm
  · rintro _ ⟨⟩
    exact index
  · rw [List.append_nil]
    exact ⟨done, tail, rfl, completed, phase⟩

/-- The packet at the read index fails. -/
theorem moved_fail {u : Session} {parcel : Parcel} {work : List Deed} {cause : Fault}
    (tracks : l.Tracks q.ring r) (index : p.index = .ofNat r)
    (live : u.queues.get? q.handle = some q) (notices : u.notices = s.notices)
    (completed : l.Completed r done) (published : l.stage r = .published parcel)
    (worked : work = [] ∨ parcel.Work r work) :
    q.Moved l (done ++ (work ++ [.failed p.index cause])) [] s (u.failPacket q p cause) := by
  have like := q.like_inactivate
  have ring := inactivate_ring q
  have phase : (q.inactivate.setProcessor { p with state := .stopped }).Phase l r
      (work ++ [.failed (.ofNat r) cause])
      (if q.inactivate.notifies then [⟨q.inactivate.handle, cause⟩] else []) :=
    .failed published (inactivate_isActive q) (by rintro _ ⟨⟩; rfl) worked
  rw [like.handle, like.notifies, ← index] at phase
  refine ⟨q.inactivate.setProcessor { p with state := .stopped }, r,
    if q.notifies then [⟨q.handle, cause⟩] else [], ?_,
    ⟨like.handle, like.agent, like.notifies⟩, ?_, ring ▸ tracks, ?_,
    done, _, rfl, completed, phase⟩
  · rw [get?_failPacket, live, Option.map_some]
  · rw [Session.told, Session.told, notices_failPacket, List.filter_append, notices]
    split <;> simp
  · rintro _ ⟨⟩
    exact index

/-- The packet at the read index is complete. -/
theorem moved_advance {u : Session} {parcel : Parcel} {work : List Deed}
    (tracks : l.Tracks q.ring r) (index : p.index = .ofNat r)
    (live : u.queues.get? q.handle = some q) (notices : u.notices = s.notices)
    (completed : l.Completed r done) (published : l.stage r = .published parcel)
    (worked : parcel.Work r work) :
    q.Moved l (done ++ (work ++ [.completed p.index parcel.slot.completion?])) [] s
      (u.advance q p) := by
  have shown : (l.stage r).IsPublished := by rw [published]; trivial
  have head : p.index = q.ring.readIndex := index.trans tracks.readIndex_eq.symm
  have fits : p.index.toNat + 1 < 2 ^ 64 := by
    rw [head, tracks.read]
    exact tracks.add_one_lt shown
  have next : p.index + 1 = .ofNat (r + 1) := by rw [index, UInt64.ofNat_add]; rfl
  have silent : (u.advance q p).notices = u.notices := by
    rw [advance]
    split <;> rfl
  refine ⟨(q.modifyRing fun r => (r.retire p.index).setReadIndex (p.index + 1)).setProcessor
    ⟨p.index + 1, .ready⟩, r + 1, [], ?_, ⟨rfl, rfl, rfl⟩, ?_, ?_, ?_, _, [], ?_,
    completed.next published worked, .waiting ?_⟩
  · rw [get?_advance u q fits, live, Option.map_some]
  · exact (told_congr (silent.trans notices) _).trans (List.append_nil _).symm
  · rw [head]
    exact tracks.consume shown
  · rintro _ ⟨⟩
    exact next
  · rw [index, List.append_nil]
  · rintro _ ⟨⟩
    trivial

/-- A processor that looks at the slot of its index, or has looked, has not done anything with
it. -/
theorem untouched (phase : q.Phase l r tail told) (running : q.processor = some p)
    (state : p.state = .ready ∨ p.state = .idle) : tail = [] ∧ told = [] := by
  cases phase with
  | waiting => exact ⟨rfl, rfl⟩
  | working _ busy =>
    cases busy.symm.trans running
    rcases state with looks | looked
    · cases looks
    · cases looked
  | failed _ _ stopped =>
    rcases state with looks | looked
    · cases looks.symm.trans (stopped p running)
    · cases looked.symm.trans (stopped p running)

/-- A processor that holds a barrier has not done anything else with it. -/
theorem holding (phase : q.Phase l r tail told) (running : q.processor = some p)
    {b : PendingBarrier} (state : p.state = .held b) :
    tail = [] ∧ told = [] ∧ ∃ parcel, l.stage r = .published parcel ∧
      parcel.header.type? ≠ some .kernelDispatch ∧ b.completion = parcel.slot.completion? := by
  cases phase with
  | waiting idle =>
    have holds := idle p running
    rw [state] at holds
    exact ⟨rfl, rfl, holds⟩
  | working _ busy =>
    cases busy.symm.trans running
    cases state
  | failed _ _ stopped => cases state.symm.trans (stopped p running)

/-- A processor that is done with the work of a packet has done what it should. -/
theorem finishing (phase : q.Phase l r tail told) (running : q.processor = some p)
    {completion : Option Handle} (state : p.state = .finishing completion) :
    told = [] ∧ ∃ parcel, l.stage r = .published parcel ∧ parcel.Work r tail ∧
      completion = parcel.slot.completion? := by
  cases phase with
  | waiting idle =>
    have none := idle p running
    rw [state] at none
    cases none
  | working published busy worked =>
    cases busy.symm.trans running
    cases state
    exact ⟨rfl, _, published, worked, rfl⟩
  | failed _ _ stopped => cases state.symm.trans (stopped p running)

/-- The packet that a processor finds is the one that was published. -/
theorem found (tracks : l.Tracks q.ring r) (index : p.index = .ofNat r)
    (published : (q.ring.header p.index).isUnpublished = false) :
    ∃ parcel, l.stage r = .published parcel ∧ q.ring.read p.index = parcel.slot ∧
      q.ring.header p.index = parcel.header ∧
      companionOfWord (q.ring.word p.index) = parcel.companion := by
  have head : p.index = q.ring.readIndex := index.trans tracks.readIndex_eq.symm
  obtain ⟨parcel, staged, slot⟩ := tracks.published_of_header (head ▸ published)
  rw [← head] at slot
  have word : q.ring.word p.index = parcel.header.word parcel.companion := by
    rw [PacketRing.word, slot, Parcel.slot, Slot.word_setWord]
  refine ⟨parcel, staged, slot, ?_, ?_⟩
  · rw [PacketRing.header, word, Header.ofWord_word]
  · rw [word, companionOfWord_word]

/-- A launch is that of the packet that was published. -/
theorem work_of_launches {parcel : Parcel} {launch : Launch}
    (launches : s.Launches q p.index (q.ring.word p.index) launch) (index : p.index = .ofNat r)
    (slot : q.ring.read p.index = parcel.slot) (header : q.ring.header p.index = parcel.header)
    (companion : companionOfWord (q.ring.word p.index) = parcel.companion) :
    parcel.Work r [.ran p.index launch] := by
  obtain ⟨a, -, planned⟩ := launches.planned
  have type : (q.ring.header p.index).type? = some .kernelDispatch := launches.type
  rw [slot, companion] at planned
  rw [header] at type
  exact index ▸ .ran type ⟨_, _, _, planned⟩

/-- A step of the processor: the packet at the read index is worked on, completed, or fails. -/
theorem moved (stands : q.Stands l r log told) (live : s.queues.get? q.handle = some q)
    (host : q.agent.bind s.agents.get? ≠ none) (running : q.processor = some p)
    {deeds : List Deed} (move : s.Move q p deeds t) : q.Moved l (log ++ deeds) told s t := by
  obtain ⟨tracks, index, done, tail, rfl, completed, phase⟩ := stands
  have index := index p running
  have busy : ∀ completion, (q.setProcessor { p with state := .finishing completion }).processor =
      some ⟨.ofNat r, .finishing completion⟩ := fun _ => by rw [← index]; rfl
  rw [List.append_assoc]
  cases move with
  | look state | crash state =>
    obtain ⟨rfl, rfl⟩ := untouched phase running (.inl state)
    exact moved_set tracks index live rfl completed (.waiting (by rintro _ ⟨⟩; trivial))
  | resume state | leave state =>
    obtain ⟨rfl, rfl⟩ := untouched phase running (.inr state)
    exact moved_set tracks index live rfl completed (.waiting (by rintro _ ⟨⟩; trivial))
  | @skip completion state published type signal empty =>
    obtain ⟨rfl, rfl⟩ := untouched phase running (.inl state)
    obtain ⟨parcel, staged, slot, -, -⟩ := found tracks index published
    have known : completion = parcel.slot.completion? := slot ▸ (packetSignal_eq_ok signal).1
    refine moved_set tracks index live rfl completed (.working staged (known ▸ busy _) ?_)
    exact .nothing fun _ => slot ▸ empty.resolve_left host
  | @run completion launch state published signal launches returned =>
    obtain ⟨rfl, rfl⟩ := untouched phase running (.inl state)
    obtain ⟨parcel, staged, slot, header, companion⟩ := found tracks index published
    have known : completion = parcel.slot.completion? := slot ▸ (packetSignal_eq_ok signal).1
    exact moved_set tracks index live rfl completed
      (.working staged (known ▸ busy _) (work_of_launches launches index slot header companion))
  | @panic launch state published launches ended =>
    obtain ⟨rfl, rfl⟩ := untouched phase running (.inl state)
    obtain ⟨parcel, staged, slot, header, companion⟩ := found tracks index published
    exact moved_fail (u := (s.runLaunch launch).2) tracks index live rfl completed staged
      (.inr (work_of_launches launches index slot header companion))
  | hold state published type signal =>
    obtain ⟨rfl, rfl⟩ := untouched phase running (.inl state)
    obtain ⟨parcel, staged, slot, header, -⟩ := found tracks index published
    refine moved_set tracks index live rfl completed (.waiting ?_)
    rintro _ ⟨⟩
    exact ⟨parcel, staged, header ▸ type, slot ▸ (packetSignal_eq_ok signal).1⟩
  | refuse state published =>
    obtain ⟨rfl, rfl⟩ := untouched phase running (.inl state)
    obtain ⟨parcel, staged, -⟩ := found tracks index published
    exact moved_fail tracks index live rfl completed staged (.inl rfl)
  | pass state opens =>
    obtain ⟨rfl, rfl, parcel, staged, type, known⟩ := holding phase running state
    exact moved_set tracks index live rfl completed
      (.working staged (known ▸ busy _) (.nothing fun other => absurd other type))
  | give state stale =>
    obtain ⟨rfl, rfl, parcel, staged, -⟩ := holding phase running state
    exact moved_fail tracks index live rfl completed staged (.inl rfl)
  | complete state signal =>
    obtain ⟨rfl, parcel, staged, worked, rfl⟩ := finishing phase running state
    have counted := sameQueues_countDown s parcel.slot.completion?
    exact moved_advance tracks index (counted.queues ▸ live) counted.notices completed staged
      worked
  | miss state stale =>
    obtain ⟨rfl, parcel, staged, worked, -⟩ := finishing phase running state
    exact moved_fail tracks index live rfl completed staged (.inr worked)

end Queue.Stands

end Accelerator
