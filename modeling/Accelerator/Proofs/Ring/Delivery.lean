import Accelerator.Proofs.Ring.Production

/-!
# Delivery on a soft queue

Any number of producers put packets into a soft queue while one consumer takes them out. Their
steps may come in any order, and between them anything may happen that leaves the queue alone.

The consumer handles the packets in the order of their indices, each exactly as it was filled and
published, none twice, and none left out. An index that has not been published holds up all later
ones. No producer touches a slot whose packet has not been consumed.

## Why the queue has to be new

Runs begin with the making of the queue. Of a queue found somewhere on its way nothing is known of
its slots, and producers who do not keep to the protocol might have filled any of them. From the
beginning on the ledger knows all that was done, and the packets that were handled are as many as
the read index says.

## Main definitions

* `Parcel.view`: a published packet as it is to be handled.
* `Delivery`: the runs of a soft queue, with the packets handled.

## Main results

* `Session.tryNext_of_published`, `Session.tryNext_of_not_published`: what the consumer finds.
* `Delivery.delivered`: the invariant of a run.
* `Delivery.delivers_in_order`: exactly-once delivery in order.
-/

namespace Accelerator

open Session Accelerator.Action

variable {h : Handle} {s t : Session} {l m : Ledger} {q : Queue}

/-- The packet of an index as a consumer sees it after it was published. -/
def Parcel.view (p : Parcel) (i : Nat) : PacketView :=
  ⟨.ofNat i, p.header, p.companion, p.slot⟩

/-- The runs of a soft queue: a session, the ledger of the queue's producers, and the packets that
its consumer has handled, from the making of the queue on. -/
inductive Delivery (h : Handle) : Session → Ledger → List PacketView → Prop where
  | start {s t : Session} {q : Queue} {region doorbell : Handle} {size : UInt32}
      {type : QueueType} {features : Features} (reachable : s.Reachable) (room : s.HasRoom)
      (made : createSoftQueue region size type features doorbell s = (.ok q, t))
      (named : q.handle = h) : Delivery h t .fresh []
  | produce {s t : Session} {l m : Ledger} {seen : List PacketView} {producer : Nat}
      (before : Delivery h s l seen) (step : ProducerStep h producer s l t m) : Delivery h t m seen
  | handle {s t : Session} {l : Ledger} {seen : List PacketView} {view : PacketView}
      {consumed : Consumed} (before : Delivery h s l seen)
      (handled : tryNext h s = (.ok (some (view, consumed)), t)) : Delivery h t l (seen ++ [view])
  | look {s t : Session} {l : Ledger} {seen : List PacketView} (before : Delivery h s l seen)
      (nothing : tryNext h s = (.ok none, t)) : Delivery h t l seen
  | elsewhere {s t : Session} {l : Ledger} {seen : List PacketView} {turn : Turn}
      (before : Delivery h s l seen) (step : Step turn s t) (spared : ¬ turn.Touches h) :
      Delivery h t l seen
  | rehost {s : Session} {l : Ledger} {seen : List PacketView} (before : Delivery h s l seen)
      (host : Host) : Delivery h (s.rehost host) l seen

/-! ### What the consumer finds -/

namespace Session

/-- The packet that is handled is the one in the slot. -/
theorem fst_consume (s : Session) (q : Queue) (index : UInt64) (word : UInt32) :
    (s.consume q index word).1 = .ofWord q.ring index word := by
  rcases Nat.lt_or_ge (index.toNat + 1) (2 ^ 64) with fits | beyond
  · rw [consume_of_fits fits]
  · rw [consume_of_last (Nat.le_antisymm index.toNat_lt beyond)]

/-- Consuming a packet gives its slot back, moves the read index on, and counts its completion
signal down, if that can be done. -/
theorem get?_consume {index : UInt64} (word : UInt32) (fits : index.toNat + 1 < 2 ^ 64) :
    (s.consume q index word).2.1 ≠ .overflowed ∧
      (s.consume q index word).2.2.queues.get? q.handle = (s.queues.get? q.handle).map
        (·.modifyRing fun r => (r.retire index).setReadIndex (index + 1)) := by
  have counted := (keeps_complete (PacketView.ofWord q.ring index word).completion s).sameQueues
  rw [consume_of_fits fits]
  constructor
  · dsimp only
    split <;> exact Consumed.noConfusion
  · rw [modifyHeldQueue, modifyHeldQueue, Directory.get?_modifyHeld, if_pos rfl,
      Directory.get?_modifyHeld, if_pos rfl, Option.map_map]
    exact congrArg (Option.map _) (congrArg (Directory.get? · _) counted.queues)

/-- Nothing is handled while the next index has not been published. -/
theorem tryNext_of_not_published {consumed : Nat} (isOpen : s.isOpen = true)
    (live : s.queues.get? h = some q) (tracks : l.Tracks q.ring consumed)
    (notYet : ¬ (l.stage consumed).IsPublished) : tryNext h s = (.ok none, s) := by
  rw [tryNext_eq isOpen live]
  exact if_pos (tracks.shows_head.unpublished notYet)

/-- A packet that has been published is handled as it was published, and consumed. -/
theorem tryNext_of_published {consumed : Nat} {parcel : Parcel} (isOpen : s.isOpen = true)
    (live : s.queues.get? h = some q) (named : q.handle = h)
    (tracks : l.Tracks q.ring consumed) (published : l.stage consumed = .published parcel) :
    ∃ outcome t, tryNext h s = (.ok (some (parcel.view consumed, outcome)), t) ∧
      outcome ≠ .overflowed ∧ s.Changes (· = h) t ∧
      t.queues.get? h = some (q.modifyRing fun r =>
        (r.retire q.ring.readIndex).setReadIndex (q.ring.readIndex + 1)) := by
  have head := tracks.shows_head
  rw [published] at head
  have word : q.ring.word q.ring.readIndex = parcel.header.word parcel.companion := by
    rw [PacketRing.word, head.1, Parcel.slot, Slot.word_setWord]
  have fits : q.ring.readIndex.toNat + 1 < 2 ^ 64 := by
    rw [tracks.read]
    exact tracks.add_one_lt (by rw [published]; trivial)
  have after := get?_consume (s := s) (q := q) (q.ring.word q.ring.readIndex) fits
  have changes := (routine_consume (named ▸ live) q.ring.readIndex
    (q.ring.word q.ring.readIndex)).changes
  rw [named] at after changes
  rw [live, Option.map_some] at after
  have view : (s.consume q q.ring.readIndex (q.ring.word q.ring.readIndex)).1 =
      parcel.view consumed := by
    rw [fst_consume, PacketView.ofWord, head.1, word, Header.ofWord_word, companionOfWord_word,
      Parcel.view, tracks.readIndex_eq]
  refine ⟨_, _, ?_, after.1, changes, after.2⟩
  rw [tryNext_eq isOpen live, if_neg]
  · rw [← view]
  · rw [word, Header.ofWord_word, head.2]
    exact Bool.false_ne_true

end Session

/-! ### Runs -/

/-- What holds all along a run: the ledger agrees with the ring, and the packets handled are those
that were published for the first indices. -/
structure Delivered (h : Handle) (s : Session) (l : Ledger) (seen : List PacketView) : Prop where
  wf : s.queues.WellFormed Queue.handle
  isOpen : s.isOpen = true
  tracks : ∃ q, s.queues.get? h = some q ∧ l.Tracks q.ring seen.length
  seen : ∀ i view, seen[i]? = some view →
    ∃ parcel, l.stage i = .published parcel ∧ view = parcel.view i

namespace Delivered

variable {seen : List PacketView} {view : PacketView} {consumed : Consumed}

/-- A new queue. -/
theorem start {region doorbell : Handle} {size : UInt32} {type : QueueType} {features : Features}
    (reachable : s.Reachable) (room : s.HasRoom)
    (made : createSoftQueue region size type features doorbell s = (.ok q, t)) :
    Delivered q.handle t .fresh [] := by
  have wf := reachable.wellFormed.queues
  have changes := (keeps_createSoftQueue region size type features doorbell).of_eq made
    room.2.1
  obtain ⟨sized, ring, -, isOpen, live⟩ := createSoftQueue_eq_ok wf room made
  refine ⟨changes.wellFormed wf, isOpen, ⟨q, live, ?_⟩, by simp⟩
  rw [ring]
  exact Ledger.tracks_ofSize sized

/-- A step of a producer. -/
theorem produce {producer : Nat} (inv : Delivered h s l seen)
    (step : ProducerStep h producer s l t m) : Delivered h t m seen := by
  obtain ⟨q, live, tracks⟩ := inv.tracks
  obtain ⟨other, f, effect⟩ := step.effect
  obtain rfl : q = other := Directory.eq_of_held? effect.held live
  refine ⟨effect.changes.wellFormed inv.wf, effect.isOpen.trans inv.isOpen,
    ⟨q.modifyRing f, ?_, effect.tracks _ tracks⟩, fun i view found => ?_⟩
  · rw [effect.get?_eq, live, Option.map_some]
  · obtain ⟨parcel, published, same⟩ := inv.seen i view found
    exact ⟨parcel, step.stage_published published, same⟩

/-- Handling a packet. -/
theorem handle (inv : Delivered h s l seen)
    (handled : tryNext h s = (.ok (some (view, consumed)), t)) :
    Delivered h t l (seen ++ [view]) := by
  obtain ⟨q, live, tracks⟩ := inv.tracks
  have named := inv.wf.named h q live
  cases next : l.stage seen.length with
  | vacant | filled =>
    rw [tryNext_of_not_published inv.isOpen live tracks (by rw [next]; exact id)] at handled
    cases handled
  | published parcel =>
    obtain ⟨outcome, u, answer, -, changes, after⟩ :=
      tryNext_of_published inv.isOpen live named tracks next
    cases handled.symm.trans answer
    refine ⟨changes.wellFormed inv.wf, changes.isOpen_eq_of_one.trans inv.isOpen,
      ⟨_, after, ?_⟩, fun i view found => ?_⟩
    · rw [List.length_append]
      exact tracks.consume (by rw [next]; trivial)
    · rcases Nat.lt_trichotomy i seen.length with earlier | rfl | later
      · rw [List.getElem?_append_left earlier] at found
        exact inv.seen i view found
      · rw [List.getElem?_concat_length] at found
        cases found
        exact ⟨parcel, next, rfl⟩
      · have outside : (seen ++ [parcel.view seen.length])[i]? = none :=
          List.getElem?_eq_none (by rw [List.length_append]; exact later)
        cases outside.symm.trans found

/-- Looking for a packet in vain. -/
theorem look (inv : Delivered h s l seen) (nothing : tryNext h s = (.ok none, t)) :
    Delivered h t l seen := by
  obtain ⟨q, live, tracks⟩ := inv.tracks
  cases next : l.stage seen.length with
  | vacant | filled =>
    rw [tryNext_of_not_published inv.isOpen live tracks (by rw [next]; exact id)] at nothing
    cases nothing
    exact inv
  | published parcel =>
    obtain ⟨_, _, answer, -⟩ :=
      tryNext_of_published inv.isOpen live (inv.wf.named h q live) tracks next
    cases nothing.symm.trans answer

/-- A step that leaves the queue alone. -/
theorem elsewhere {turn : Turn} (inv : Delivered h s l seen) (step : Step turn s t)
    (spared : ¬ turn.Touches h) : Delivered h t l seen := by
  obtain ⟨q, live, tracks⟩ := inv.tracks
  have changes := step.changes inv.wf
  have same := changes.heldQueue?_eq inv.wf (Directory.held?_of_get? live) spared
  exact ⟨changes.wellFormed inv.wf, (changes.isOpen_eq spared).trans inv.isOpen,
    ⟨q, same.1.trans live, tracks⟩, inv.seen⟩

end Delivered

/-- The packet handled for an index is one that was filled and published. -/
structure PacketView.Carries (v : PacketView) (i : Nat) (p : Parcel) : Prop where
  index : v.index.toNat = i
  header : v.header = p.header
  companion : v.companion = p.companion
  word : v.slot.word = p.header.word p.companion
  payload : v.slot.payload = p.packet.payload

theorem Parcel.carries_view (p : Parcel) {i : Nat} (fits : i < 2 ^ 64) :
    (p.view i).Carries i p where
  index := UInt64.toNat_ofNat_of_lt' fits
  header := rfl
  companion := rfl
  word := Slot.word_setWord ..
  payload := Slot.payload_setWord ..

namespace Delivery

variable {seen : List PacketView}

/-- The invariant of a run. -/
theorem delivered (run : Delivery h s l seen) : Delivered h s l seen := by
  induction run with
  | start reachable room made named => exact named ▸ .start reachable room made
  | produce _ step inv => exact inv.produce step
  | handle _ handled inv => exact inv.handle handled
  | look _ nothing inv => exact inv.look nothing
  | elsewhere _ step spared inv => exact inv.elsewhere step spared
  | rehost _ _ inv => exact ⟨inv.wf, inv.isOpen, inv.tracks, inv.seen⟩

/-- The packets are handled exactly once and in the order of their indices, each as it was filled
and published. The consumer takes the next one as soon as it is published, and none before. No
index is reserved twice, and an index that may be filled or published lies in a free slot: all
packets that were in the slot have been consumed, and so have all earlier indices of the slot. -/
theorem delivers_in_order (run : Delivery h s l seen) :
    (∀ i view, seen[i]? = some view →
      ∃ parcel, l.stage i = .published parcel ∧ view.Carries i parcel) ∧
    (∀ parcel, l.stage seen.length = .published parcel → ∃ view outcome t,
      tryNext h s = (.ok (some (view, outcome)), t) ∧ outcome ≠ .overflowed ∧
        view.Carries seen.length parcel) ∧
    (¬ (l.stage seen.length).IsPublished → tryNext h s = (.ok none, s)) ∧
    (∀ a ∈ l.leases, ∀ b ∈ l.leases, ∀ i, a.Holds i → b.Holds i → a = b) ∧
    ∃ q, s.queues.get? h = some q ∧
      ∀ a ∈ l.cleared, ∀ i, a.Holds i → ¬ (l.stage i.toNat).IsPublished →
        a ∈ l.leases ∧ (q.ring.header i).isUnpublished = true ∧
        ∀ j, q.ring.place (.ofNat j) = q.ring.place i →
          (j < i.toNat ∨ (l.stage j).IsPublished) → j < seen.length := by
  have inv := run.delivered
  obtain ⟨q, live, tracks⟩ := inv.tracks
  have fits : ∀ {i parcel}, l.stage i = .published parcel → i < 2 ^ 64 := fun {i _} published =>
    ((tracks.stages i (by rw [published]; nofun)).1).trans tracks.total_lt
  refine ⟨fun i view found => ?_, fun parcel next => ?_,
    tryNext_of_not_published inv.isOpen live tracks,
    fun a ha b hb i => tracks.lease_eq ha hb, q, live, fun a ha i holds notYet => ?_⟩
  · obtain ⟨parcel, published, rfl⟩ := inv.seen i view found
    exact ⟨parcel, published, parcel.carries_view (fits published)⟩
  · obtain ⟨outcome, t, answer, proper, -⟩ :=
      tryNext_of_published inv.isOpen live (inv.wf.named h q live) tracks next
    exact ⟨_, outcome, t, answer, proper, parcel.carries_view (fits next)⟩
  · refine ⟨(tracks.cleared a ha).1, tracks.header_unpublished ha holds notYet,
      fun j same before => tracks.lt_of_place_eq ha holds notYet same before⟩

/-- One producer puts one packet into a queue of two slots, and the consumer handles it. -/
theorem delivers_single : ∃ s l view,
    Delivery (.ofParts 0 1) s l [view] ∧
      view.Carries 0 ⟨.ofBytes [0, 0, 0, 0, 9], .ofType .agentDispatch, 7⟩ ∧
      tryNext (.ofParts 0 1) s = (.ok none, s) := by
  have opened : Reachable (.ofConfig .default) := .opened (c := .default) rfl
  have signalled := opened.step
    (.application (o := .createSignal 0 0 []) ⟨by decide, by decide, by decide⟩
      (by rintro ⟨_, _, _, _, _, _, other | other⟩ <;> cases other))
  have made : Delivery (.ofParts 0 1) _ .fresh [] :=
    .start signalled ⟨by decide, by decide, by decide⟩
      (rfl : createSoftQueue (.ofParts 0 1) 2 .multi .agentDispatch (.ofParts 0 1) _ = (.ok _, _))
      rfl
  have reserved := made.produce (.reserve (by decide) (by decide)
    (rfl : addWriteIndex (.ofParts 0 1) 1 .relaxed _ = (.ok 0, _)) :
      ProducerStep (.ofParts 0 1) 0 _ _ _ _)
  have observed := reserved.produce (.observe (a := ⟨0, 0, 1⟩) (.head _) rfl rfl (by decide))
  have filled := observed.produce (.fill (a := ⟨0, 0, 1⟩) (.head _) rfl
    (by constructor <;> decide) (by exact id)
    (rfl : writePacket (.ofParts 0 1) 0 (.ofBytes [0, 0, 0, 0, 9]) _ = (.ok (), _)))
  have published := filled.produce (.publish (a := ⟨0, 0, 1⟩) (.head _) rfl
    (by constructor <;> decide) rfl (by decide)
    (rfl : Session.publish (.ofParts 0 1) 0 (.ofType .agentDispatch) 7 _ = (.ok (), _)))
  have handled := published.handle rfl
  have inOrder := handled.delivers_in_order
  obtain ⟨parcel, fromProducer, carried⟩ := inOrder.1 0 _ rfl
  cases fromProducer
  exact ⟨_, _, _, handled, carried, inOrder.2.2.1 id⟩

end Delivery

end Accelerator
