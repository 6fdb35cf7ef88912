import Accelerator.Proofs.Ring.Processing
import Accelerator.Proofs.Ring.Production

/-!
# Reserving indices

Any number of producers reserve indices of one queue, in any order. One way is to add to the write
index, which always succeeds on an active queue. The other is to move the write index from where it
is expected, which fails if another producer was faster; the producer may expect anything, and may
try again. In between anything may happen, except that somebody sets the write index: packets are
filled, published and consumed, and the queue may be ended or destroyed, after which all attempts
are refused.

The ranges reserved lie one behind the other, from where the write index was to where it is. So
they are disjoint and leave no index out, as long as the write index has not gone once around. It
may start anywhere, and go on from `2 ^ 64 - 1` to 0.

## Distances

A range that goes round at `2 ^ 64` is two ranges of numbers, and comparing two of these has many
cases. So indices are compared by how far they lie behind a start, which is a difference of words
and goes round with them. A lemma for two ranges, one behind the other, is all that has to be said
about distances in numbers (`Consecutive.far_iff`).

That the indices reserved are fewer than `2 ^ 64` in all is needed: otherwise the last reservations
come around to the first.

## Main definitions

* `Within`: a range of indices, which may contain `2 ^ 64 - 1` and 0.
* `Lease.Covers`, `Consecutive`: the indices of a reservation, and reservations one behind
  another.
* `Attempt`, `Bid`, `Race`: attempts, attempts with their answers, and runs of them.
* `Turn.MovesWriteIndex`: somebody sets or moves the write index of a queue.

## Main results

* `Consecutive.covers_iff_within`, `Consecutive.apart`: consecutive ranges tile the range of all
  of them.
* `Attempt.run_cases`: what becomes of an attempt.
* `Session.Step.writeIndex`: nobody else moves the write index.
* `Race.consecutive`: the reservations of a run.
* `Race.leases_tile`: what is reserved, and what is answered.
-/

namespace Accelerator

open Session Accelerator.Action

/-! ### Ranges of indices -/

/-- The index is one of those from `first` on that come before `limit`. They may go round at
`2 ^ 64`. -/
def Within (first limit i : UInt64) : Prop :=
  i - first < limit - first

/-- The index is one of those reserved, which may go round at `2 ^ 64`. -/
def Lease.Covers (a : Lease) (i : UInt64) : Prop :=
  Within a.first (a.first + a.count) i

theorem Lease.covers_iff {a : Lease} {i : UInt64} :
    a.Covers i ↔ (i - a.first).toNat < a.count.toNat := by
  have count : a.first + a.count - a.first = a.count := by
    rw [UInt64.add_comm, UInt64.add_sub_cancel]
  rw [Covers, Within, count, UInt64.lt_iff_toNat_lt]

/-- Reservations one behind the other: the first starts at one index, the last ends before
another. -/
def Consecutive (first : UInt64) : List Lease → UInt64 → Prop
  | [], limit => first = limit
  | a :: rest, limit => a.first = first ∧ Consecutive (first + a.count) rest limit

namespace Consecutive

variable {first limit i : UInt64} {a : Lease} {leases : List Lease}

theorem concat (h : Consecutive first leases limit) (next : a.first = limit) :
    Consecutive first (leases ++ [a]) (limit + a.count) := by
  induction leases generalizing first with
  | nil =>
    cases (show first = limit from h)
    exact ⟨next, rfl⟩
  | cons b rest ih => exact ⟨h.1, ih h.2⟩

/-- The limit is as far from the start as there are indices. -/
theorem limit_eq (h : Consecutive first leases limit) :
    limit = first + .ofNat (leases.map (·.count.toNat)).sum := by
  induction leases generalizing first with
  | nil =>
    rw [← show first = limit from h]
    simp
  | cons a rest ih =>
    rw [ih h.2, List.map_cons, List.sum_cons, UInt64.ofNat_add, UInt64.ofNat_toNat,
      UInt64.add_assoc]

/-- An index that is so far behind the start of two reservations lies in the first, behind it, or
in neither. -/
theorem far_iff {total : Nat} (fits : a.count.toNat + total < 2 ^ 64) :
    (i - (first + a.count)).toNat < total ↔
      a.count.toNat ≤ (i - first).toNat ∧ (i - first).toNat < a.count.toNat + total := by
  have start := first.toNat_lt
  have small := i.toNat_lt
  rw [UInt64.toNat_sub, UInt64.toNat_add, UInt64.toNat_sub]
  omega

/-- Consecutive reservations leave no index out. -/
theorem covers_iff (h : Consecutive first leases limit)
    (fits : (leases.map (·.count.toNat)).sum < 2 ^ 64) :
    (∃ a ∈ leases, a.Covers i) ↔ (i - first).toNat < (leases.map (·.count.toNat)).sum := by
  induction leases generalizing first with
  | nil => simp
  | cons a rest ih =>
    rw [List.map_cons, List.sum_cons] at fits ⊢
    have later := ih h.2 (by omega)
    rw [far_iff fits] at later
    rw [List.exists_mem_cons_iff, later, Lease.covers_iff, h.1]
    omega

/-- Consecutive reservations have no index in common. -/
theorem apart (h : Consecutive first leases limit)
    (fits : (leases.map (·.count.toNat)).sum < 2 ^ 64) :
    leases.Pairwise fun a b => ∀ i, ¬ (a.Covers i ∧ b.Covers i) := by
  induction leases generalizing first with
  | nil => exact .nil
  | cons a rest ih =>
    rw [List.map_cons, List.sum_cons] at fits
    have short : (rest.map (·.count.toNat)).sum < 2 ^ 64 := by omega
    refine .cons (fun b later i both => ?_) (ih h.2 short)
    obtain ⟨here, there⟩ := both
    have behind := (far_iff fits).mp ((covers_iff h.2 short).mp ⟨b, later, there⟩)
    rw [Lease.covers_iff, h.1] at here
    omega

/-- What consecutive reservations cover is the range of all of them. -/
theorem covers_iff_within (h : Consecutive first leases limit)
    (fits : (leases.map (·.count.toNat)).sum < 2 ^ 64) :
    (∃ a ∈ leases, a.Covers i) ↔ Within first limit i := by
  have whole : (limit - first).toNat = (leases.map (·.count.toNat)).sum := by
    rw [h.limit_eq, UInt64.add_comm, UInt64.add_sub_cancel]
    exact UInt64.toNat_ofNat_of_lt' fits
  rw [h.covers_iff fits, Within, UInt64.lt_iff_toNat_lt, whole]

end Consecutive

/-! ### Attempts -/

/-- An attempt to reserve indices. -/
inductive Attempt where
  /-- Adding to the write index. -/
  | add (count : UInt64)
  /-- Moving the write index on, if it is where it is expected. -/
  | swap (expected count : UInt64)

namespace Attempt

variable {h : Handle} {s t : Session}

/-- How many indices are wanted. -/
def count : Attempt → UInt64
  | add count => count
  | swap _ count => count

/-- The action of the producer. -/
def run (h : Handle) (order : MemoryOrder) : Attempt → Action UInt64
  | add count => addWriteIndex h count order
  | swap expected count => compareAndSwapWriteIndex h expected (expected + count) order

/-- The attempt succeeds if the write index is as it says. -/
def Wins (index : UInt64) : Attempt → Prop
  | add _ => True
  | swap expected _ => index = expected

instance (index : UInt64) (a : Attempt) : Decidable (a.Wins index) :=
  match a with
  | add _ => isTrue trivial
  | swap expected _ => inferInstanceAs (Decidable (index = expected))

/-- The ring after an attempt. -/
def move (a : Attempt) (r : PacketRing) : PacketRing :=
  if a.Wins r.writeIndex then r.setWriteIndex (r.writeIndex + a.count) else r

/-- An attempt is refused, and changes nothing; or it shows the write index, and moves it if it
wins. -/
theorem run_cases (h : Handle) (order : MemoryOrder) (a : Attempt) (s : Session) :
    (∃ q, s.isOpen = true ∧ s.queues.get? h = some q ∧ q.isActive = true ∧
      a.run h order s = (.ok q.ring.writeIndex, s.modifyQueue h (·.modifyRing a.move))) ∨
    ∃ e, (∀ q, s.isOpen = true → s.queues.get? h = some q → q.isActive = false) ∧
      a.run h order s = (.error e, s) := by
  rcases (keeps_activeQueue (R := Eq) h).answers s with ⟨q, found⟩ | ⟨e, refused⟩
  · refine .inl ⟨q, ?_⟩
    obtain ⟨isOpen, live, active, -⟩ := activeQueue_eq_ok.mp found
    refine ⟨isOpen, live, active, ?_⟩
    cases a with
    | add count =>
      rw [run, addWriteIndex_at_once, bind_of_ok found]
      have same : (add count).move = fun r => (r.addWriteIndex count).2 :=
        funext fun r => if_pos trivial
      rw [same]
      rfl
    | swap expected count =>
      rw [run, compareAndSwapWriteIndex_at_once, bind_of_ok found]
      have same : (swap expected count).move =
          fun r => (r.compareAndSwapWriteIndex expected (expected + count)).2 := by
        funext r
        by_cases here : r.writeIndex = expected
        · subst here
          simp [move, Wins, PacketRing.compareAndSwapWriteIndex, PacketRing.setWriteIndex,
            Attempt.count]
        · simp [move, Wins, PacketRing.compareAndSwapWriteIndex, here]
      rw [same]
      rfl
  · refine .inr ⟨e, fun q isOpen live => ?_, ?_⟩
    · by_contra active
      have found := activeQueue_eq_ok.mpr ⟨isOpen, live, by simpa using active, rfl⟩
      cases refused.symm.trans found
    · cases a with
      | add => exact bind_of_error refused
      | swap => exact bind_of_error refused

/-- An attempt that does not win leaves the session as it is. -/
theorem modifyQueue_of_loses {a : Attempt} {q : Queue} (live : s.queues.get? h = some q)
    (loses : ¬ a.Wins q.ring.writeIndex) : s.modifyQueue h (·.modifyRing a.move) = s := by
  have fixed : q.modifyRing a.move = q := by
    rw [Queue.modifyRing, move, if_neg loses]
  have same : s.queues.live.modify h (·.modifyRing a.move) = s.queues.live :=
    Arena.modify_of_fixed live fixed
  rw [modifyQueue, Directory.modify, same]

end Attempt

/-! ### Nobody else moves the write index -/

/-- The turn sets or moves the write index of a queue. -/
def Turn.MovesWriteIndex : Turn → Handle → Prop
  | application (.storeWriteIndex k _ _), h | application (.compareAndSwapWriteIndex k _ _ _), h
  | application (.addWriteIndex k _ _), h | application (.reserve k _), h
  | application (.submit k _), h | application (.barrierAnd k _ _), h => h = k
  | _, _ => False

namespace Session

variable {s t : Session} {h k : Handle} {q : Queue} {p : Processor}

theorem writeIndex_storeReadIndex (k : Handle) (value : UInt64) (order : MemoryOrder) :
    Keeps (SameIn (·.writeIndex) h) (storeReadIndex k value order) :=
  storeReadIndex_at_once k value order ▸ (keeps_queue k).bind fun _ => (keeps_liftM _).bind fun _ =>
    keeps_in_modifyRing k (f := (·.setReadIndex value)) fun _ => rfl

theorem writeIndex_consume (held : s.heldQueue? q.handle = some q) (index : UInt64)
    (word : UInt32) : SameIn (·.writeIndex) h s (s.consume q index word).2.2 := by
  obtain ⟨queues, sets, -, ran⟩ := consume_spec held index word
  rw [ran]
  intro q₀ held₀
  have after : queues.held? h = _ := sets.held h
  by_cases here : h = q.handle
  · subst here
    obtain rfl := Option.some.inj (held.symm.trans held₀)
    rw [if_pos rfl] at after
    refine ⟨_, after, ?_⟩
    show (q.ring.settle index).writeIndex = q.ring.writeIndex
    rw [PacketRing.settle]
    split <;> rfl
  · rw [if_neg here] at after
    exact ⟨q₀, after.trans held₀, rfl⟩

theorem writeIndex_tryNext (wf : s.queues.WellFormed Queue.handle) (k : Handle) :
    SameIn (·.writeIndex) h s (tryNext k s).2 := by
  rcases queue_cases k s with ⟨q, isOpen, live, -⟩ | ⟨e, missing⟩
  · rw [tryNext_eq isOpen live]
    split
    · exact refl_of _ s
    · obtain rfl := wf.named k q live
      exact writeIndex_consume (Directory.held?_of_get? live) _ _
  · rw [tryNext_of_missing missing]
    exact refl_of _ s

theorem Consumption.writeIndex {handled : List (PacketView × Consumed)}
    (run : Consumption k (fun _ _ => False) s handled t) (wf : s.queues.WellFormed Queue.handle) :
    SameIn (·.writeIndex) h s t := by
  induction run with
  | start => exact refl_of _ s
  | @consume _ t _ q _ _ before held _ consumed ih =>
    have named := (before.wellFormed (fun _ _ => False.elim) wf).name_of_held? held
    have kept := writeIndex_consume (h := h) (named ▸ held) q.ring.readIndex
      (q.ring.word q.ring.readIndex)
    rw [consumed] at kept
    exact ih.trans kept
  | elsewhere _ other => exact other.elim

theorem writeIndex_process (wf : s.queues.WellFormed Queue.handle) (k : Handle)
    (ends : List PacketView → Bool) : SameIn (·.writeIndex) h s (process k ends s).2.2 := by
  have loop : ProcessRun k (fun _ _ => False) ends s _ _ (process k ends s).2.2 :=
    .of_process rfl
  obtain ⟨handled, run, -⟩ := loop.consumes (fun _ _ => False.elim) wf
  exact run.writeIndex wf

theorem writeIndex_setProcessor (s : Session) (q : Queue) (p : Processor) :
    SameIn (·.writeIndex) h s (s.setProcessor q p) :=
  s.sameIn_modifyQueue fun _ => rfl

theorem writeIndex_failPacket (s : Session) (q : Queue) (p : Processor) (cause : Fault) :
    SameIn (·.writeIndex) h s (s.failPacket q p cause) :=
  ((s.sameIn_inactivate q.handle).trans (writeIndex_setProcessor _ q _)).trans
    (sameIn_of_eq (queues_failPacket s q p cause))

theorem writeIndex_advance (s : Session) (q : Queue) (p : Processor) :
    SameIn (·.writeIndex) h s (s.advance q p) := by
  have retired : SameIn (·.writeIndex) h s _ :=
    s.sameIn_modifyRing q.handle (f := (·.retire p.index)) fun _ => rfl
  rw [advance]
  split
  · exact retired.trans (writeIndex_setProcessor _ q _)
  case h_2 next _ =>
    have moved := retired.trans (sameIn_modifyRing _ q.handle (f := (·.setReadIndex next))
      fun _ => rfl)
    exact moved.trans (writeIndex_setProcessor _ q _)

/-- A command processor sets no write index. -/
theorem Move.writeIndex {deeds : List Deed} (move : s.Move q p deeds t) :
    SameIn (·.writeIndex) h s t := by
  cases move with
  | look | resume | leave | skip | hold | crash | pass => exact writeIndex_setProcessor s q _
  | run =>
    exact (sameIn_of_eq (sameQueues_runLaunch s _).queues).trans (writeIndex_setProcessor _ q _)
  | panic =>
    exact (sameIn_of_eq (sameQueues_runLaunch s _).queues).trans (writeIndex_failPacket _ q p _)
  | refuse | give | miss => exact writeIndex_failPacket s q p _
  | complete =>
    exact (sameIn_of_eq (sameQueues_countDown s _).queues).trans (writeIndex_advance _ q p)

/-- Consumers, and whoever ends a queue, leave its write index to the producers. -/
theorem Step.writeIndex {turn : Turn} (step : Step turn s t)
    (wf : s.queues.WellFormed Queue.handle) (spared : ¬ turn.MovesWriteIndex h) :
    SameIn (·.writeIndex) h s t := by
  by_cases touch : turn.Touches h
  case neg => exact (step.changes wf).sameIn wf touch
  cases step with
  | processor live stepped =>
    obtain ⟨p, deeds, -, move⟩ := Move.exists_of_stepProcessor? stepped
    exact move.writeIndex
  | @application _ o =>
    cases o with
    | storeWriteIndex | compareAndSwapWriteIndex | addWriteIndex | reserve | submit | barrierAnd =>
      exact absurd touch spared
    | inactivateQueue k => exact keeps_in_inactivateQueue k s
    | destroyQueue k =>
      obtain rfl : h = k := touch
      exact sameIn_destroyQueue wf h
    | shutDown => exact sameIn_shutDown wf h
    | storeReadIndex k value order => exact writeIndex_storeReadIndex k value order s
    | writePacket k index packet => exact keeps_in_writePacket (fun _ _ _ => rfl) k index packet s
    | publish k index header companion =>
      exact keeps_in_publish (fun _ _ _ => rfl) k index header companion s
    | resumeSubmit waiting => exact keeps_in_resumeSubmit (fun _ _ _ => rfl) waiting s
    | tryNext k =>
      have checked := keeps_consumer (R := Eq) k s
      rw [Operation.perform, bind_apply]
      generalize consumer k s = answer at checked
      obtain ⟨_ | _, m⟩ := answer
      all_goals obtain rfl : s = m := checked
      · exact refl_of _ s
      · exact writeIndex_tryNext wf k
    | process k ends =>
      have checked := keeps_consumer (R := Eq) k s
      rw [Operation.perform]
      generalize consumer k s = answer at checked
      obtain ⟨_ | _, m⟩ := answer
      all_goals obtain rfl : s = m := checked
      · exact refl_of _ s
      · exact writeIndex_process wf k ends
    | _ => exact touch.elim

end Session

/-! ### Runs -/

/-- An attempt of a producer with the answer that it got. -/
structure Bid where
  producer : Nat
  attempt : Attempt
  answer : Except Fault UInt64

namespace Bid

/-- The indices that were reserved, if the attempt succeeded. -/
def lease? (b : Bid) : Option Lease :=
  match b.answer with
  | .ok first => if b.attempt.Wins first then some ⟨b.producer, first, b.attempt.count⟩ else none
  | .error _ => none

/-- The attempt moved the write index from where it was expected. -/
def Swapped (expected : UInt64) (b : Bid) : Prop :=
  b.answer = .ok expected ∧ ∃ count, b.attempt = .swap expected count

end Bid

/-- The indices reserved by attempts. -/
def leases (bids : List Bid) : List Lease :=
  bids.filterMap Bid.lease?

/-- The runs of producers that reserve indices of one queue, with their attempts in order. In
between others take their steps. -/
inductive Race (h : Handle) (s : Session) : List Bid → Session → Prop where
  | start : Race h s [] s
  | attempt {bids : List Bid} {t u : Session} {a : Attempt} {order : MemoryOrder}
      {answer : Except Fault UInt64} (before : Race h s bids t) (producer : Nat)
      (pos : 0 < a.count) (ran : a.run h order t = (answer, u)) :
      Race h s (bids ++ [⟨producer, a, answer⟩]) u
  | elsewhere {bids : List Bid} {t u : Session} {turn : Turn} (before : Race h s bids t)
      (step : Step turn t u) (spared : ¬ turn.MovesWriteIndex h) : Race h s bids u
  | rehost {bids : List Bid} {t : Session} (before : Race h s bids t) (host : Host) :
      Race h s bids (t.rehost host)

namespace Race

variable {h : Handle} {s t u : Session} {bids : List Bid} {q : Queue}

theorem wellFormed (run : Race h s bids t) (wf : s.queues.WellFormed Queue.handle) :
    t.queues.WellFormed Queue.handle := by
  induction run with
  | start => exact wf
  | @attempt _ t _ a order _ _ _ _ ran ih =>
    rcases a.run_cases h order t with ⟨q, -, -, -, won⟩ | ⟨e, -, refused⟩
    · cases ran.symm.trans won
      exact (t.changes_modifyRing h a.move).wellFormed ih
    · cases ran.symm.trans refused
      exact ih
  | elsewhere _ step _ ih => exact (step.changes ih).wellFormed ih
  | rehost _ _ ih => exact ih

theorem count_pos (run : Race h s bids t) : ∀ b ∈ bids, 0 < b.attempt.count := by
  induction run with
  | start => nofun
  | attempt _ _ pos _ ih =>
    intro b listed
    rcases List.mem_append.mp listed with earlier | last
    · exact ih b earlier
    · cases List.mem_singleton.mp last
      exact pos
  | elsewhere _ _ _ ih | rehost _ _ ih => exact ih

/-- The reservations of a run lie one behind the other, from where the write index was to where it
is. -/
theorem consecutive (run : Race h s bids t) (wf : s.queues.WellFormed Queue.handle)
    (held : s.heldQueue? h = some q) : ∃ q', t.heldQueue? h = some q' ∧
      Consecutive q.ring.writeIndex (leases bids) q'.ring.writeIndex := by
  induction run with
  | start => exact ⟨q, held, rfl⟩
  | @attempt bids t u a order answer before producer pos ran ih =>
    obtain ⟨q', held', chain⟩ := ih
    have more : leases (bids ++ [⟨producer, a, answer⟩]) =
        leases bids ++ (Bid.lease? ⟨producer, a, answer⟩).toList := by
      rw [leases, List.filterMap_append]
      rfl
    rw [more]
    rcases a.run_cases h order t with ⟨q₁, isOpen, live, active, answered⟩ | ⟨e, -, refused⟩
    · obtain rfl := Directory.eq_of_held? held' live
      obtain ⟨rfl, rfl⟩ := Prod.mk.inj (ran.symm.trans answered)
      refine ⟨q₁.modifyRing a.move, ?_, ?_⟩
      · refine Directory.held?_of_get? ?_
        rw [modifyQueue, Directory.get?_modify_self, live, Option.map_some]
      · show Consecutive _ _ (a.move q₁.ring).writeIndex
        rw [Bid.lease?, Attempt.move]
        by_cases wins : a.Wins q₁.ring.writeIndex
        · simp only [wins, if_true]
          exact chain.concat rfl
        · simp only [wins, if_false, Option.toList_none, List.append_nil]
          exact chain
    · obtain ⟨rfl, rfl⟩ := Prod.mk.inj (ran.symm.trans refused)
      refine ⟨q', held', ?_⟩
      rw [Bid.lease?, Option.toList_none, List.append_nil]
      exact chain
  | elsewhere before step spared ih =>
    obtain ⟨q', held', chain⟩ := ih
    obtain ⟨q'', held'', same⟩ := step.writeIndex (before.wellFormed wf) spared q' held'
    refine ⟨q'', held'', ?_⟩
    rw [show q''.ring.writeIndex = q'.ring.writeIndex from same]
    exact chain
  | rehost _ _ ih => exact ih

/-- A move of the write index from where it was expected reserves that index. -/
theorem lease?_of_swapped {b : Bid} {e : UInt64} (swapped : b.Swapped e)
    (pos : 0 < b.attempt.count) : ∃ a, b.lease? = some a ∧ a.Covers e := by
  obtain ⟨answer, count, same⟩ := swapped
  refine ⟨⟨b.producer, e, b.attempt.count⟩, ?_, ?_⟩
  · rw [Bid.lease?, answer, same]
    exact if_pos rfl
  · rw [Lease.covers_iff, UInt64.sub_self]
    exact pos

/-- Any number of producers reserve indices of a queue, by adding to the write index or by moving it
from where they expect it, and fewer than `2 ^ 64` in all. Then no index is reserved twice, and the
indices reserved are those from where the write index was to where it is. Of the attempts to move
it from the same place one at most succeeds. An attempt on an active queue shows the write index,
and all others are refused; an attempt that does not succeed changes nothing. -/
theorem leases_tile (run : Race h s bids t) (wf : s.queues.WellFormed Queue.handle)
    (held : s.heldQueue? h = some q)
    (fits : ((leases bids).map (·.count.toNat)).sum < 2 ^ 64) :
    ∃ q', t.heldQueue? h = some q' ∧
      (leases bids).Pairwise (fun a b => ∀ i, ¬ (a.Covers i ∧ b.Covers i)) ∧
      (∀ i, (∃ a ∈ leases bids, a.Covers i) ↔ Within q.ring.writeIndex q'.ring.writeIndex i) ∧
      (∀ e, bids.Pairwise fun x y => ¬ (x.Swapped e ∧ y.Swapped e)) ∧
      ∀ (a : Attempt) order,
        ((a.run h order t).1 = .ok q'.ring.writeIndex ↔
          t.isOpen = true ∧ t.queues.get? h = some q' ∧ q'.isActive = true) ∧
        (∀ first, (a.run h order t).1 = .ok first → first = q'.ring.writeIndex) ∧
        ((∀ first, (a.run h order t).1 = .ok first → ¬ a.Wins first) →
          (a.run h order t).2 = t) := by
  obtain ⟨q', held', chain⟩ := run.consecutive wf held
  have apart := chain.apart fits
  refine ⟨q', held', apart, fun i => chain.covers_iff_within fits, fun e => ?_, fun a order => ?_⟩
  · -- two of them would both have reserved the index that was expected
    have listed := List.pairwise_filterMap.mp apart
    refine listed.imp_of_mem fun {x y} inX inY disjoint both => ?_
    obtain ⟨a, leaseX, coversX⟩ := lease?_of_swapped both.1 (run.count_pos x inX)
    obtain ⟨b, leaseY, coversY⟩ := lease?_of_swapped both.2 (run.count_pos y inY)
    exact disjoint a leaseX b leaseY e ⟨coversX, coversY⟩
  · rcases a.run_cases h order t with ⟨q₁, isOpen, live, active, answered⟩ | ⟨e, closed, refused⟩
    · obtain rfl := Directory.eq_of_held? held' live
      rw [answered]
      refine ⟨⟨fun _ => ⟨isOpen, live, active⟩, fun _ => rfl⟩, fun first same => ?_,
        fun loses => ?_⟩
      · cases same
        rfl
      · exact Attempt.modifyQueue_of_loses live (loses _ rfl)
    · rw [refused]
      refine ⟨⟨nofun, ?_⟩, nofun, fun _ => rfl⟩
      rintro ⟨isOpen, live, active⟩
      rw [closed q' isOpen live] at active
      cases active

/-- Two producers reserve indices around `2 ^ 64`. The first adds to the write index, both try to
move it from 1, and the first is faster. -/
theorem leases_tile_around : ∃ s t q q',
    Race (.ofParts 0 1) s
      [⟨0, .add 3, .ok 0xfffffffffffffffe⟩, ⟨0, .swap 1 2, .ok 1⟩, ⟨1, .swap 1 1, .ok 3⟩] t ∧
    s.heldQueue? (.ofParts 0 1) = some q ∧ q.ring.writeIndex = 0xfffffffffffffffe ∧
    t.heldQueue? (.ofParts 0 1) = some q' ∧ q'.ring.writeIndex = 3 ∧
    ∀ i, (∃ a ∈ [Lease.mk 0 0xfffffffffffffffe 3, ⟨0, 1, 2⟩], a.Covers i) ↔
      Within 0xfffffffffffffffe 3 i := by
  have opened : Reachable (.ofConfig .default) := .opened (c := .default) rfl
  have signalled := opened.step (.lasting (o := .createSignal 0 0 [])
    ⟨by decide, by decide, by decide⟩ (by constructor <;> nofun))
  have made := signalled.step (.lasting
    (o := .createSoftQueue (.ofParts 0 1) 2 .multi .agentDispatch (.ofParts 0 1))
    ⟨by decide, by decide, by decide⟩ (by constructor <;> nofun))
  have reachable := made.step (.lasting
    (o := .storeWriteIndex (.ofParts 0 1) 0xfffffffffffffffe .relaxed)
    ⟨by decide, by decide, by decide⟩ (by constructor <;> nofun))
  have start {s : Session} (_ : s.Reachable) : Race (.ofParts 0 1) s [] s := .start
  have added := (start reachable).attempt 0 (by decide)
    (rfl : Attempt.run (.ofParts 0 1) .relaxed (.add 3) _ = (.ok 0xfffffffffffffffe, _))
  have won := added.attempt 0 (by decide)
    (rfl : Attempt.run (.ofParts 0 1) .relaxed (.swap 1 2) _ = (.ok 1, _))
  have lost := won.attempt 1 (by decide)
    (rfl : Attempt.run (.ofParts 0 1) .relaxed (.swap 1 1) _ = (.ok 3, _))
  obtain ⟨q', held', -, covers, -⟩ :=
    lost.leases_tile reachable.wellFormed.queues rfl (by decide : _ < 2 ^ 64)
  have index : q'.ring.writeIndex = 3 := by
    cases held'
    rfl
  refine ⟨_, _, _, q', lost, rfl, rfl, held', index, ?_⟩
  rw [index] at covers
  exact covers

end Race

end Accelerator
