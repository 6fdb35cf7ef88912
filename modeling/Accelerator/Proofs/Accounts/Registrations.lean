import Accelerator.Proofs.Accounts.Accesses
import Accelerator.Proofs.Runs.Refusals

/-!
# Counting registrations

A range of the application's own memory may be registered more than once, and then it takes as many
calls to take that back. What counts is the exact range: ranges that start at one address, overlap,
or lie in each other are counted apart. A run tells of the registrations that were made and of those
that were taken back, and the memory map agrees with it as long as the session is open: a range is
on the list of registrations exactly if it was registered more often than it was taken back, and its
count is the difference.

A range cannot be registered if it shares a byte with an allocation, be it one of the application or
the ring of a soft queue. A range that passes the last address is cut there, which makes no
difference to that, because allocations end before the last address.

## Why the session has to be open

Shutting down forgets all registrations at once, and nobody takes them back. So the counts agree
with the history as long as the session is open, and the premise goes along through the induction.

The invariant adds what was taken back to the count, and does not take it off the registrations:
there is no subtraction of natural numbers to go wrong, and that no range was taken back more often
than it was registered need not be assumed. That each range stands on the list once is part of the
invariant too. Counts are looked up, so without it a second entry would be on the list and never be
seen.

## Main definitions

* `RegistrationEvent`, `Turn.registrationEvents`: registrations that were made or taken back.
* `Memory.Tallied`: the registrations of a map agree with what has happened.
* `Session.RegistrationRun`: a run on sound hosts, with the events on the way.

## Main results

* `Memory.lookup_setRegistrationCount`: setting the count of a range leaves those of all others.
* `Memory.WellFormed.exists_register_iff`: when a range can be registered.
* `Session.RegistrationRun.mem_registrations_iff`, `Session.RegistrationRun.registers_iff`,
  `Session.RegistrationRun.deregisters_iff`: what a history says of one range.
* `Session.RegistrationRun.listed_with_difference`: all of it, along every run.
-/

namespace Accelerator

/-- A registration that was made, or one that was taken back. -/
inductive RegistrationEvent where
  | registered (address size : UInt64)
  | deregistered (address size : UInt64)
  deriving DecidableEq

/-- The operation has to do with registrations. -/
def Operation.Registers : Operation → Prop
  | register _ _ | deregister _ _ | shutDown => True
  | _ => False

/-- The registrations that a turn makes or takes back. -/
def Turn.registrationEvents (s : Session) : Turn → List RegistrationEvent
  | application (.register address size) =>
    match (Session.register address size s).1 with
    | .ok _ => [.registered address size]
    | .error _ => []
  | application (.deregister address size) =>
    match (Session.deregister address size s).1 with
    | .ok _ => [.deregistered address size]
    | .error _ => []
  | _ => []

/-! ### Counts of a map -/

namespace Memory

variable {m n : Memory} {address size : UInt64} {other : UInt64 × UInt64}

/-- Keeping the entries of some keys only, one finds those. -/
theorem lookup_filter_key {κ β : Type} [BEq κ] [LawfulBEq κ] (keep : κ → Bool)
    (entries : List (κ × β)) (key : κ) :
    (entries.filter fun entry => keep entry.1).lookup key =
      if keep key then entries.lookup key else none := by
  induction entries with
  | nil => simp
  | cons entry rest ih =>
    obtain ⟨named, value⟩ := entry
    rw [List.filter_cons]
    by_cases here : key = named
    · subst here
      cases kept : keep key <;> simp [kept, ih]
    · have differs : (key == named) = false := beq_false_of_ne here
      cases kept : keep named <;> simp [List.lookup_cons, differs, ih]

/-- Setting the count of a range leaves those of all others. -/
theorem lookup_setRegistrationCount (m : Memory) (address size : UInt64) (count : UInt32)
    (range : UInt64 × UInt64) :
    (m.setRegistrationCount address size count).registrations.lookup range =
      if range = (address, size) then if count = 0 then none else some count
      else m.registrations.lookup range := by
  have others := lookup_filter_key (fun range => decide (range ≠ (address, size))) m.registrations
    range
  rw [setRegistrationCount]
  dsimp only
  by_cases same : range = (address, size)
  · rw [if_pos same]
    split
    · exact others.trans (if_neg (by simp [same]))
    · rw [same, List.lookup_cons, beq_self_eq_true]
  · rw [if_neg same]
    have kept := others.trans (if_pos (by simp [same]))
    split
    · exact kept
    · rw [List.lookup_cons, beq_false_of_ne same]
      exact kept

theorem mem_setRegistrationCount_of_ne (m : Memory) (address size : UInt64) (count : UInt32)
    {entry : (UInt64 × UInt64) × UInt32} (other : entry.1 ≠ (address, size)) :
    entry ∈ (m.setRegistrationCount address size count).registrations ↔
      entry ∈ m.registrations := by
  have others : entry ∈ m.registrations.filter (fun entry => entry.1 ≠ (address, size)) ↔
      entry ∈ m.registrations := by simp [List.mem_filter, other]
  rw [setRegistrationCount]
  dsimp only
  split
  · exact others
  · rw [List.mem_cons, others]
    exact or_iff_right fun same => other (by rw [same])

theorem registrationCount_setRegistrationCount (m : Memory) (address size : UInt64)
    (count : UInt32) (start length : UInt64) :
    (m.setRegistrationCount address size count).registrationCount start length =
      if (start, length) = (address, size) then count else m.registrationCount start length := by
  rw [registrationCount, lookup_setRegistrationCount]
  split
  · split
    case isTrue zero => exact zero.symm
    case isFalse => rfl
  · rfl

/-- The registrations of a map agree with what has happened: each range is listed once at most, and
with those that were taken back there are as many registrations as were made. -/
structure Tallied (m : Memory) (events : List RegistrationEvent) : Prop where
  keys : (m.registrations.map (·.1)).Nodup
  tally : ∀ address size, (m.registrationCount address size).toNat +
    events.count (.deregistered address size) = events.count (.registered address size)

theorem nodup_setRegistrationCount (keys : (m.registrations.map (·.1)).Nodup)
    (address size : UInt64) (count : UInt32) :
    ((m.setRegistrationCount address size count).registrations.map (·.1)).Nodup := by
  have others : ((m.registrations.filter fun entry => entry.1 ≠ (address, size)).map
      (·.1)).Nodup :=
    keys.sublist (List.filter_sublist.map _)
  rw [setRegistrationCount]
  dsimp only
  split
  · exact others
  · refine List.nodup_cons.mpr ⟨fun listed => ?_, others⟩
    obtain ⟨entry, kept, same⟩ := List.mem_map.mp listed
    have other : entry.1 ≠ (address, size) := by simpa using List.of_mem_filter kept
    exact other same

/-- The list of registrations holds what is registered once at least, with its count. -/
theorem WellFormed.mem_registrations_iff (wf : m.WellFormed)
    (keys : (m.registrations.map (·.1)).Nodup) {count : UInt32} :
    ((address, size), count) ∈ m.registrations ↔
      count ≠ 0 ∧ m.registrationCount address size = count := by
  rw [registrationCount]
  constructor
  · intro listed
    refine ⟨wf.counted _ listed, ?_⟩
    rw [lookup_of_mem listed fun other inside => congrArg Prod.snd
      (List.inj_on_of_nodup_map keys inside listed rfl), Option.getD_some]
  · rintro ⟨positive, counted⟩
    cases found : m.registrations.lookup (address, size) with
    | none => exact absurd (by simpa [found] using counted.symm) positive
    | some other =>
      rw [found, Option.getD_some] at counted
      exact counted ▸ mem_of_lookup found

/-- A range is found to overlap nothing if it shares no byte with an allocation. Cutting it at the
last address makes no difference. -/
theorem WellFormed.overlapping_eq_nil (wf : m.WellFormed) (positive : size ≠ 0) :
    m.overlapping address size = [] ↔ ∀ start a, m.allocationAt? start = some a → Disjoint
      (Set.Ico address.toNat (min (address.toNat + size.toNat) (2 ^ 64 - 1)))
      (span start a.size) := by
  have cut : ∀ entry ∈ m.allocations, Disjoint (span address size) (span entry.1 entry.2.size) ↔
      Disjoint (Set.Ico address.toNat (min (address.toNat + size.toNat) (2 ^ 64 - 1)))
        (span entry.1 entry.2.size) := by
    intro entry listed
    have := (wf.placed entry listed).fits
    rw [span, span, Set.Ico_disjoint_Ico, Set.Ico_disjoint_Ico]
    omega
  rw [List.eq_nil_iff_forall_not_mem]
  constructor
  · intro apart start a found
    have listed := wf.allocationAt?_eq_some.mp found
    refine (cut _ listed).mp (not_not.mp fun shared => apart (start, a) ?_)
    exact (wf.mem_overlapping positive).mpr ⟨listed, shared⟩
  · intro apart entry found
    obtain ⟨listed, shared⟩ := (wf.mem_overlapping positive).mp found
    exact shared ((cut entry listed).mpr (apart _ _ (wf.allocationAt?_eq_some.mpr listed)))

/-- A range can be registered if it is not null and not empty, shares no byte with an allocation,
and is not registered as often as can be counted. -/
theorem WellFormed.exists_register_iff (wf : m.WellFormed) :
    (∃ n, m.register address size = .ok n) ↔ address ≠ 0 ∧ size ≠ 0 ∧
      (∀ start a, m.allocationAt? start = some a → Disjoint
        (Set.Ico address.toNat (min (address.toNat + size.toNat) (2 ^ 64 - 1)))
        (span start a.size)) ∧
      (m.registrationCount address size).toNat < 2 ^ 32 - 1 := by
  simp only [register_eq_ok, exists_and_left, exists_eq', and_true]
  refine and_congr_right fun _ => and_congr_right fun positive => and_congr ?_ ?_
  · exact wf.overlapping_eq_nil positive
  · exact Nat.lt_sub_iff_add_lt.symm

end Memory

namespace Session

open Accelerator.Action

variable {s t : Session} {h : Handle}

/-! ### What has nothing to do with registrations -/

/-- The registrations are as before, and the session is open if it was. -/
structure SameRegistrations (s t : Session) : Prop where
  registrations : t.memory.registrations = s.memory.registrations
  isOpen : t.isOpen = s.isOpen

instance : IsPreorder Session SameRegistrations where
  refl _ := ⟨rfl, rfl⟩
  trans _ _ _ first second := ⟨second.1.trans first.1, second.2.trans first.2⟩

theorem SameAccounts.sameRegistrations (same : s.SameAccounts t) : s.SameRegistrations t := by
  obtain ⟨contents, refilled⟩ := same.memory
  exact ⟨by rw [refilled], same.isOpen⟩

theorem sameRegistrations_createSignal (initial : Int64) (count : UInt32)
    (consumers : List Handle) : Keeps SameRegistrations (createSignal initial count consumers) :=
  keeps_ensureOpen.bind fun _ => (keeps_require _ _).bind fun _ =>
    (keeps_forM (fun h => (keeps_agent h).discard) _).bind fun _ => keeps_session.bind fun _ =>
      (keeps_change fun _ => ⟨rfl, rfl⟩).bind fun _ => keeps_pure _

theorem sameRegistrations_allocateFrom {r : Region} {size alignment start rounded : UInt64}
    {usage : AllocationUse}
    (taken : s.allocateFrom r size alignment usage = .ok (start, rounded, t)) :
    s.SameRegistrations t := by
  obtain ⟨memory, answer, rfl⟩ := allocateFrom_eq_ok taken
  obtain ⟨-, host, -, rfl⟩ := Memory.allocate_eq_ok answer
  exact ⟨rfl, rfl⟩

theorem sameRegistrations_allocate (h : Handle) (size : UInt64) :
    Keeps SameRegistrations (allocate h size) :=
  (keeps_region h).bind fun r => .bind_session fun s => by
    cases taken : s.allocateFrom r size r.info.alignment .application with
    | error cause => exact refl_of SameRegistrations s
    | ok block => exact sameRegistrations_allocateFrom taken

theorem sameRegistrations_freeBlock (address : UInt64) (usage : AllocationUse) (s : Session) :
    s.SameRegistrations (freeBlock address usage s).2 := by
  rcases freeBlock_cases address usage s with ⟨-, same⟩ | ⟨a, memory, freed, same⟩
  · rw [same]
    exact refl_of SameRegistrations s
  · rw [same, (Memory.free_eq_ok freed).2.2]
    exact ⟨rfl, rfl⟩

theorem sameRegistrations_assign (address : UInt64) (h : Handle) (access : AccessPermission) :
    Keeps SameRegistrations (assign address h access) :=
  (keeps_agent h).bind fun a => .bind_session fun s => by
    cases given : s.memory.assign s.isFineGrained address a.handle access with
    | error cause =>
      rw [bind_apply]
      exact refl_of SameRegistrations s
    | ok memory =>
      rw [Memory.assign] at given
      split at given
      · cases given
      · split at given
        · cases given
          exact ⟨rfl, rfl⟩
        · cases given
          exact ⟨rfl, rfl⟩

theorem sameRegistrations_tearDown (s : Session) (q : Queue) :
    s.SameRegistrations (s.tearDown q) := by
  refine ⟨?_, (sameQueues_tearDown s q).isOpen⟩
  rcases s.memory_tearDown q with same | ⟨address, a, freed⟩
  · rw [same]
  · rw [(Memory.free_eq_ok freed).2.2]

theorem sameRegistrations_withdrawQueue (s : Session) (q : Queue) :
    s.SameRegistrations (s.withdrawQueue q) := by
  rw [withdrawQueue]
  split
  case h_1 queues _ =>
    have taken : s.SameRegistrations { s with queues } := ⟨rfl, rfl⟩
    exact trans_of SameRegistrations taken (sameRegistrations_tearDown _ q)
  case h_2 => exact s.sameRegistrations_tearDown q

theorem sameRegistrations_createQueue (h : Handle) (size : UInt32) (type : QueueType)
    (options : QueueOptions) : Keeps SameRegistrations (createQueue h size type options) := by
  intro s
  rcases createQueue_cases h size type options s with
    ⟨e, refused⟩ | ⟨a, base, host, -, made | ⟨-, reason, -, withdrawn⟩⟩
  · rw [refused]
    exact refl_of SameRegistrations s
  · rw [made]
    exact ⟨rfl, rfl⟩
  · have placed : s.SameRegistrations
        (s.withHardwareQueue a (s.hardwareQueue a size type options base) host) := ⟨rfl, rfl⟩
    rw [withdrawn]
    exact trans_of SameRegistrations placed
      (sameRegistrations_withdrawQueue _ (s.hardwareQueue a size type options base))

theorem sameRegistrations_createSoftQueue (regionHandle : Handle) (size : UInt32)
    (type : QueueType) (features : Features) (doorbell : Handle) :
    Keeps SameRegistrations (createSoftQueue regionHandle size type features doorbell) :=
  keeps_ensureOpen.bind fun _ => (keeps_require _ _).bind fun _ => (keeps_require _ _).bind fun _ =>
    (keeps_require _ _).bind fun _ => (keeps_region _).bind fun r => (keeps_signal _).bind fun _ =>
    keeps_session.bind fun _ => keeps_session.bind fun _ => (keeps_require _ _).bind fun _ =>
    (keeps_change fun _ => ⟨rfl, rfl⟩).bind fun _ => .bind_session fun s => by
      cases taken : s.allocateFrom r (PacketRing.storageBytes size) (.ofNat Packet.alignment)
        .queueRing with
      | error cause =>
        exact (keeps_change fun _ => ⟨rfl, rfl⟩).bind (fun _ => keeps_refuse _) s
      | ok block =>
        obtain ⟨start, rounded, t⟩ := block
        have same := sameRegistrations_allocateFrom taken
        exact ⟨same.registrations, same.isOpen⟩

theorem sameRegistrations_destroyQueue (h : Handle) :
    Keeps SameRegistrations (destroyQueue h) :=
  keeps_ensureOpen.bind fun _ => .bind_session fun s => by
    cases removed : s.queues.remove h Queue.destroy with
    | none => exact refl_of SameRegistrations s
    | some found =>
      obtain ⟨q, queues⟩ := found
      have taken : s.SameRegistrations { s with queues } := ⟨rfl, rfl⟩
      exact trans_of SameRegistrations taken (sameRegistrations_tearDown _ q)

theorem sameRegistrations_perform (wf : s.WellFormed) {o : Operation} (other : ¬ o.Registers) :
    s.SameRegistrations (o.perform s) := by
  cases o with
  | createSignal => exact sameRegistrations_createSignal _ _ _ s
  | allocate => exact sameRegistrations_allocate _ _ s
  | free address =>
    exact (keeps_ensureOpen.bind fun _ => sameRegistrations_freeBlock address .application) s
  | assign => exact sameRegistrations_assign _ _ _ s
  | takeHostBlock size =>
    rw [Operation.perform, hostBlock?]
    cases s.memory.host.allocate? size 1 <;> exact ⟨rfl, rfl⟩
  | createQueue => exact sameRegistrations_createQueue _ _ _ _ s
  | createSoftQueue => exact sameRegistrations_createSoftQueue _ _ _ _ _ s
  | destroyQueue h => exact sameRegistrations_destroyQueue h s
  | register | deregister | shutDown => exact (other trivial).elim
  | createExecutable | loadCode | freezeExecutable | destroyExecutable =>
    refine (reloads_perform ?_).sameAccounts.sameRegistrations
    trivial
  | _ =>
    refine (routine_perform wf.queues ?_).sameAccounts.sameRegistrations
    trivial

/-! ### Registering -/

variable {address size : UInt64} {events : List RegistrationEvent}

/-- What changes the memory map in an open session, or fails. -/
theorem changeMemory_eq_ok {f : Memory → Except Fault Memory} :
    (do ensureOpen; let memory ← f (← session).memory; change fun s => { s with memory } :
      Action Unit) s = (.ok (), t) ↔
    s.isOpen = true ∧ ∃ m, f s.memory = .ok m ∧ { s with memory := m } = t := by
  simp only [bind_eq_ok, ensureOpen_eq_ok, session_eq_ok, liftM_eq_ok, change_eq_ok]
  constructor
  · rintro ⟨_, _, ⟨isOpen, rfl⟩, _, _, ⟨rfl, rfl⟩, m, _, ⟨changed, rfl⟩, same⟩
    exact ⟨isOpen, m, changed, same⟩
  · rintro ⟨isOpen, m, changed, same⟩
    exact ⟨(), s, ⟨isOpen, rfl⟩, s, s, ⟨rfl, rfl⟩, m, s, ⟨changed, rfl⟩, same⟩

theorem register_eq_ok : register address size s = (.ok (), t) ↔
    s.isOpen = true ∧ ∃ m, s.memory.register address size = .ok m ∧ { s with memory := m } = t :=
  changeMemory_eq_ok (f := (·.register address size))

theorem deregister_eq_ok : deregister address size s = (.ok (), t) ↔
    s.isOpen = true ∧
      ∃ m, s.memory.deregister address size = .ok m ∧ { s with memory := m } = t :=
  changeMemory_eq_ok (f := (·.deregister address size))

end Session

namespace Memory.Tallied

variable {m n : Memory} {events : List RegistrationEvent} {address size : UInt64}

/-- The count of a range is set to what an event makes of it. The event has nothing to do with any
other range. -/
theorem recount (tallied : m.Tallied events) {event : RegistrationEvent} {count : UInt32}
    (named : event = .registered address size ∨ event = .deregistered address size)
    (counted : count.toNat + (events ++ [event]).count (.deregistered address size) =
      (events ++ [event]).count (.registered address size)) :
    (m.setRegistrationCount address size count).Tallied (events ++ [event]) := by
  refine ⟨nodup_setRegistrationCount tallied.keys _ _ _, fun start length => ?_⟩
  rw [registrationCount_setRegistrationCount]
  split
  case isTrue same =>
    cases same
    exact counted
  case isFalse other =>
    have unlike : ¬ (address = start ∧ size = length) := fun ⟨hs, hl⟩ => other (by rw [hs, hl])
    have before := tallied.tally start length
    rcases named with rfl | rfl <;> simpa [List.count_singleton, unlike] using before

theorem register (tallied : m.Tallied events) (registered : m.register address size = .ok n) :
    n.Tallied (events ++ [.registered address size]) := by
  obtain ⟨-, -, -, below, rfl⟩ := register_eq_ok.mp registered
  have more : (m.registrationCount address size + 1).toNat =
      (m.registrationCount address size).toNat + 1 := by
    rw [UInt32.toNat_add]
    exact Nat.mod_eq_of_lt below
  have before := tallied.tally address size
  refine tallied.recount (.inl rfl) ?_
  simp only [more, List.count_append, List.count_singleton_self, List.count_cons_of_ne,
    List.count_nil, ne_eq, reduceCtorEq, not_false_eq_true]
  omega

theorem deregister (tallied : m.Tallied events) (dropped : m.deregister address size = .ok n) :
    n.Tallied (events ++ [.deregistered address size]) := by
  obtain ⟨counted, rfl⟩ := deregister_eq_ok.mp dropped
  have positive : 0 < (m.registrationCount address size).toNat :=
    Nat.pos_of_ne_zero fun zero => counted (UInt32.toNat_inj.mp zero)
  have before := tallied.tally address size
  refine tallied.recount (.inr rfl) ?_
  simp only [toNat_pred_of_pos positive, List.count_append, List.count_singleton_self,
    List.count_cons_of_ne, List.count_nil, ne_eq, reduceCtorEq, not_false_eq_true]
  omega

end Memory.Tallied

namespace Session

open Accelerator.Action

variable {s t : Session} {address size : UInt64} {events : List RegistrationEvent}

/-! ### Along a run -/

/-- A session that runs lead to on sound hosts, with the registrations on the way. -/
inductive RegistrationRun : List RegistrationEvent → Session → Prop where
  | opened {c : Config} {s : Session} (opened : openConfig c = .ok s) : RegistrationRun [] s
  | rehost {events : List RegistrationEvent} {s : Session} (before : RegistrationRun events s)
      (host : Host) : RegistrationRun events (s.rehost host)
  | step {events : List RegistrationEvent} {turn : Turn} {s t : Session}
      (before : RegistrationRun events s) (sound : s.memory.HostSound) (step : Step turn s t) :
      RegistrationRun (events ++ turn.registrationEvents s) t

theorem RegistrationRun.hosted (run : RegistrationRun events s) : s.Hosted := by
  induction run with
  | opened opened => exact .opened opened
  | rehost _ host ih => exact ih.rehost host
  | step _ sound step ih => exact ih.step sound step

theorem SameRegistrations.tallied (same : s.SameRegistrations t) (isOpen : t.isOpen = true)
    (tallied : s.isOpen = true → s.memory.Tallied events) : t.memory.Tallied (events ++ []) := by
  obtain ⟨keys, tally⟩ := tallied (same.isOpen ▸ isOpen)
  rw [List.append_nil]
  refine ⟨same.registrations ▸ keys, fun address size => ?_⟩
  rw [Memory.registrationCount, same.registrations]
  exact tally address size

/-- A request that fails leaves the registrations alone, and what is noted of it is that nothing
happened. -/
theorem tallied_request {x : Action Unit} {event : RegistrationEvent} (atomic : x.Atomic s)
    (isOpen : (x s).2.isOpen = true) (tallied : s.isOpen = true → s.memory.Tallied events)
    (counts : ∀ t, x s = (.ok (), t) → t.memory.Tallied (events ++ [event])) :
    (x s).2.memory.Tallied (events ++ match (x s).1 with | .ok _ => [event] | .error _ => []) := by
  rcases answer : x s with ⟨e | u, t⟩
  · obtain rfl := atomic e t answer
    rw [answer] at isOpen
    exact (refl_of SameRegistrations t).tallied isOpen tallied
  · exact counts t answer

theorem registrationEvents_of_other {o : Operation} (other : ¬ o.Registers) :
    Turn.registrationEvents s (.application o) = [] := by
  cases o with
  | register | deregister => exact (other trivial).elim
  | _ => rfl

/-- Whatever happens, the registrations agree with it, as long as the session stays open. -/
theorem Step.tallied {turn : Turn} (step : Step turn s t) (wf : s.WellFormed)
    (isOpen : t.isOpen = true) (tallied : s.isOpen = true → s.memory.Tallied events) :
    t.memory.Tallied (events ++ turn.registrationEvents s) := by
  cases step with
  | @application _ o =>
    by_cases registers : o.Registers
    · cases o with
      | register address size =>
        refine tallied_request ((Request.register address size).atomic id s) isOpen tallied ?_
        intro t answer
        obtain ⟨isOpen, m, registered, rfl⟩ := register_eq_ok.mp answer
        exact (tallied isOpen).register registered
      | deregister address size =>
        refine tallied_request ((Request.deregister address size).atomic id s) isOpen tallied ?_
        intro t answer
        obtain ⟨isOpen, m, dropped, rfl⟩ := deregister_eq_ok.mp answer
        exact (tallied isOpen).deregister dropped
      | shutDown =>
        cases before : s.isOpen with
        | true =>
          rw [Operation.perform, shutDown_of_open before] at isOpen
          cases isOpen
        | false =>
          rw [Operation.perform, shutDown_of_closed before, before] at isOpen
          cases isOpen
      | _ => exact registers.elim
    · rw [registrationEvents_of_other registers]
      exact (sameRegistrations_perform wf registers).tallied isOpen tallied
  | processor live stepped =>
    obtain ⟨p, deeds, -, move⟩ := Move.exists_of_stepProcessor? stepped
    exact move.sameAccounts.sameRegistrations.tallied isOpen tallied

theorem RegistrationRun.tallied (run : RegistrationRun events s) (isOpen : s.isOpen = true) :
    s.memory.Tallied events := by
  induction run with
  | opened opened =>
    rw [openConfig_eq_ok opened]
    exact ⟨.nil, fun _ _ => rfl⟩
  | rehost _ host ih => exact ⟨(ih isOpen).keys, (ih isOpen).tally⟩
  | step before _ step ih => exact step.tallied before.hosted.wellFormed isOpen ih

/-- A request that can do no more than set the count of one range leaves the entries of all
others. -/
theorem mem_registrations_of_ne {x : Action Unit} (atomic : x.Atomic s)
    (sets : ∀ t, x s = (.ok (), t) →
      ∃ count, s.memory.setRegistrationCount address size count = t.memory)
    {entry : (UInt64 × UInt64) × UInt32} (other : entry.1 ≠ (address, size)) :
    entry ∈ (x s).2.memory.registrations ↔ entry ∈ s.memory.registrations := by
  rcases answer : x s with ⟨e | u, t⟩
  · obtain rfl := atomic e t answer
    exact Iff.rfl
  · obtain ⟨count, set⟩ := sets t answer
    dsimp only
    rw [← set]
    exact s.memory.mem_setRegistrationCount_of_ne address size count other

theorem mem_register_of_ne (s : Session) {entry : (UInt64 × UInt64) × UInt32}
    (other : entry.1 ≠ (address, size)) :
    entry ∈ (register address size s).2.memory.registrations ↔ entry ∈ s.memory.registrations := by
  refine mem_registrations_of_ne ((Request.register address size).atomic id s) ?_ other
  intro t answer
  obtain ⟨-, m, registered, rfl⟩ := register_eq_ok.mp answer
  exact ⟨_, (Memory.register_eq_ok.mp registered).2.2.2.2⟩

theorem mem_deregister_of_ne (s : Session) {entry : (UInt64 × UInt64) × UInt32}
    (other : entry.1 ≠ (address, size)) :
    entry ∈ (deregister address size s).2.memory.registrations ↔
      entry ∈ s.memory.registrations := by
  refine mem_registrations_of_ne ((Request.deregister address size).atomic id s) ?_ other
  intro t answer
  obtain ⟨-, m, dropped, rfl⟩ := deregister_eq_ok.mp answer
  exact ⟨_, (Memory.deregister_eq_ok.mp dropped).2⟩

theorem register_succeeds_iff (isOpen : s.isOpen = true) :
    (register address size s).1 = .ok () ↔ ∃ m, s.memory.register address size = .ok m := by
  rw [register, ensureOpen_bind isOpen, bind_apply, session_apply]
  dsimp only
  cases s.memory.register address size with
  | error e => exact ⟨nofun, nofun⟩
  | ok m => exact ⟨fun _ => ⟨m, rfl⟩, fun _ => rfl⟩

theorem deregister_succeeds_iff (isOpen : s.isOpen = true) :
    (deregister address size s).1 = .ok () ↔
      0 < (s.memory.registrationCount address size).toNat := by
  rw [deregister, ensureOpen_bind isOpen, bind_apply, session_apply]
  dsimp only
  rw [← UInt32.toNat_zero, ← UInt32.lt_iff_toNat_lt, UInt32.pos_iff_ne_zero]
  cases answer : s.memory.deregister address size with
  | error e =>
    refine ⟨nofun, fun positive => ?_⟩
    cases answer.symm.trans (Memory.deregister_eq_ok.mpr ⟨positive, rfl⟩)
  | ok m => exact ⟨fun _ => (Memory.deregister_eq_ok.mp answer).1, fun _ => rfl⟩

section Counts

variable (run : RegistrationRun events s) (isOpen : s.isOpen = true)
include run isOpen

theorem RegistrationRun.count_add (address size : UInt64) :
    (s.memory.registrationCount address size).toNat +
        events.count (.deregistered address size) =
      events.count (.registered address size) :=
  (run.tallied isOpen).tally address size

theorem RegistrationRun.mem_registrations_iff (count : UInt32) :
    ((address, size), count) ∈ s.memory.registrations ↔
      0 < count.toNat ∧ count.toNat + events.count (.deregistered address size) =
        events.count (.registered address size) := by
  have sum := run.count_add isOpen address size
  rw [run.hosted.memory.mem_registrations_iff (run.tallied isOpen).keys, ← UInt32.toNat_inj,
    ← UInt32.pos_iff_ne_zero, UInt32.lt_iff_toNat_lt, UInt32.toNat_zero]
  refine and_congr_right fun _ => ?_
  omega

theorem RegistrationRun.deregisters_iff :
    (deregister address size s).1 = .ok () ↔
      events.count (.deregistered address size) < events.count (.registered address size) := by
  have sum := run.count_add isOpen address size
  rw [deregister_succeeds_iff isOpen]
  omega

theorem RegistrationRun.registers_iff :
    (register address size s).1 = .ok () ↔ address ≠ 0 ∧ size ≠ 0 ∧
      (∀ start a, s.memory.allocationAt? start = some a → Disjoint
        (Set.Ico address.toNat (min (address.toNat + size.toNat) (2 ^ 64 - 1)))
        (span start a.size)) ∧
      events.count (.registered address size) <
        events.count (.deregistered address size) + (2 ^ 32 - 1) := by
  have sum := run.count_add isOpen address size
  rw [register_succeeds_iff isOpen, run.hosted.memory.exists_register_iff]
  refine and_congr_right fun _ => and_congr_right fun _ => and_congr_right fun _ => ?_
  omega

end Counts

/-- Along every run that leaves the session open, whatever else happened on it: each range is listed
as registered exactly if it was registered more often than that was taken back, with the difference
as its count. It can be taken back exactly if there is a difference. It can be registered exactly if
it is not null and not empty, shares no byte with a live allocation, and its count can be increased.
Neither has to do with the entry of any other range. -/
theorem RegistrationRun.listed_with_difference (run : RegistrationRun events s)
    (isOpen : s.isOpen = true) (address size : UInt64) :
    events.count (.deregistered address size) ≤ events.count (.registered address size) ∧
    (∀ count : UInt32, ((address, size), count) ∈ s.memory.registrations ↔
      0 < count.toNat ∧ count.toNat + events.count (.deregistered address size) =
        events.count (.registered address size)) ∧
    ((deregister address size s).1 = .ok () ↔
      events.count (.deregistered address size) < events.count (.registered address size)) ∧
    ((register address size s).1 = .ok () ↔ address ≠ 0 ∧ size ≠ 0 ∧
      (∀ start a, s.memory.allocationAt? start = some a → Disjoint
        (Set.Ico address.toNat (min (address.toNat + size.toNat) (2 ^ 64 - 1)))
        (span start a.size)) ∧
      events.count (.registered address size) <
        events.count (.deregistered address size) + (2 ^ 32 - 1)) ∧
    ∀ entry : (UInt64 × UInt64) × UInt32, entry.1 ≠ (address, size) →
      (entry ∈ (register address size s).2.memory.registrations ↔
        entry ∈ s.memory.registrations) ∧
      (entry ∈ (deregister address size s).2.memory.registrations ↔
        entry ∈ s.memory.registrations) :=
  ⟨Nat.le.intro ((Nat.add_comm ..).trans (run.count_add isOpen address size)),
    run.mem_registrations_iff isOpen, run.deregisters_iff isOpen, run.registers_iff isOpen,
    fun _ other => ⟨s.mem_register_of_ne other, s.mem_deregister_of_ne other⟩⟩

/-- Runs go on with ascending blocks. -/
theorem RegistrationRun.ascend {turn : Turn} (run : RegistrationRun events s)
    (ascends : s.memory.Ascends) (step : Step turn s t) :
    RegistrationRun (events ++ turn.registrationEvents s) t ∧ t.memory.Ascends :=
  ⟨run.step (ascends.hostSound run.hosted.memory) step,
    (step.change run.hosted.wellFormed).ascends run.hosted.memory ascends⟩

/-- A range is registered twice and a range in it once, then the outer one is taken back once. -/
theorem counts_of_nested : ∃ (events : List RegistrationEvent) (s : Session),
    RegistrationRun events s ∧ s.isOpen = true ∧
      events = [.registered 4096 64, .registered 4096 64, .registered 4104 8,
        .deregistered 4096 64] ∧
      ((4096, 64), 1) ∈ s.memory.registrations ∧ ((4104, 8), 1) ∈ s.memory.registrations := by
  have opened : RegistrationRun [] (.ofConfig .default) := .opened (c := .default) rfl
  have once := opened.ascend ⟨rfl, nofun⟩ (.lasting (o := .register 4096 64)
    ⟨by decide, by decide, by decide⟩ ⟨nofun, nofun⟩)
  have twice := once.1.ascend once.2 (.lasting (o := .register 4096 64)
    ⟨by decide, by decide, by decide⟩ ⟨nofun, nofun⟩)
  have nested := twice.1.ascend twice.2 (.lasting (o := .register 4104 8)
    ⟨by decide, by decide, by decide⟩ ⟨nofun, nofun⟩)
  have back := nested.1.ascend nested.2 (.lasting (o := .deregister 4096 64)
    ⟨by decide, by decide, by decide⟩ ⟨nofun, nofun⟩)
  obtain ⟨-, outer, -⟩ := back.1.listed_with_difference rfl 4096 64
  obtain ⟨-, inner, -⟩ := back.1.listed_with_difference rfl 4104 8
  exact ⟨_, _, back.1, rfl, rfl, (outer 1).mpr ⟨by decide, rfl⟩, (inner 1).mpr ⟨by decide, rfl⟩⟩

end Session

end Accelerator
