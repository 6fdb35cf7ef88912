import Accelerator.Proofs.Accounts.Balance
import Accelerator.Proofs.Runs.Rings

/-!
# Consuming a queue

A consumer takes the packet at the read index, if it has been published. The handler is given the
packet; then its completion signal is counted down, its slot is given back, and the read index moves
on. The slot is given back and the read index moves on even if the signal is gone, so a packet is
not handled again after that failed. Only one thing can keep the read index from moving: that the
next index does not fit 64 bits.

A run lets the consumer take one packet after another. In between anything may happen, except that
somebody else sets the read index. Then the packets handled are those of consecutive indices, and
each live signal was counted down once for each of the packets that name it.

## Held queues

A consumer may hold on to a queue that was destroyed in the meantime, so what is consumed is told of
queues that are held and not of those that are live. `Session.Consumes` has both lookups.

The last index has no lemmas of its own. Each field of `Session.Consumes` says what becomes of it
there too, and only the results along a run ask that it was not met.

## Main definitions

* `PacketView.Names`: the completion signal of a packet.
* `PacketRing.Retires`, `Session.Consumes`: what consuming a packet does to a ring and to a session.
* `Turn.MovesReadIndex`: somebody sets or moves the read index of a queue.
* `Session.Consumption`: runs of a consumer, with the packets handled.

## Main results

* `Session.consumes_consume`: what consuming a packet does.
* `Session.tryNext_unpublished`, `Session.tryNext_published`: what the consumer finds.
* `Session.Step.sameReadIndex`: nobody else moves the read index.
* `Session.Consumption.consecutive`, `Session.Consumption.signals`: what is handled along a run, and
  what becomes of signals.
-/

namespace Accelerator

/-- The packet names a signal to be counted down when it is complete. -/
def PacketView.Names (v : PacketView) (k : Handle) : Prop :=
  v.completion ≠ 0 ∧ k = ⟨v.completion⟩

instance (v : PacketView) (k : Handle) : Decidable (v.Names k) :=
  inferInstanceAs (Decidable (_ ∧ _))

/-! ### Rings -/

namespace PacketRing

variable {r r' : PacketRing} {i : UInt64}

/-- The slot of an index was given back: its header word is that of an unpublished slot, and nothing
else is different in any slot. -/
structure Retires (r : PacketRing) (i : UInt64) (r' : PacketRing) : Prop where
  word : r'.word i = Slot.unpublished.word
  payload : (r'.read i).payload = (r.read i).payload
  elsewhere : ∀ j, r.place j ≠ r.place i → r'.read j = r.read j
  size : r'.slots.size = r.slots.size
  writeIndex : r'.writeIndex = r.writeIndex

/-- What has been published is in a slot. -/
theorem place_lt_of_published (published : (r.header i).isUnpublished = false) :
    r.place i < r.slots.size := by
  by_contra outside
  have shown : r.read i = .unpublished := by
    rw [read, Array.getD, dif_neg outside]
  rw [header, word, shown, isUnpublished_unpublished] at published
  cases published

theorem retires_retire (inside : r.place i < r.slots.size) : r.Retires i (r.retire i) where
  word := by rw [word, retire, read_modifySlot_of_lt inside, Slot.word_setWord]
  payload := by rw [retire, read_modifySlot_of_lt inside, Slot.payload_setWord]
  elsewhere j other := read_modifySlot_of_ne other.symm _
  size := r.size_modifySlot i _
  writeIndex := rfl

/-- The ring when the packet of an index has been consumed. The read index moves on if it can. -/
def settle (r : PacketRing) (i : UInt64) : PacketRing :=
  if i.toNat + 1 < 2 ^ 64 then (r.retire i).setReadIndex (i + 1) else r.retire i

theorem settle_of_fits (fits : i.toNat + 1 < 2 ^ 64) (r : PacketRing) :
    r.settle i = (r.retire i).setReadIndex (i + 1) :=
  if_pos fits

theorem settle_of_last (last : 2 ^ 64 ≤ i.toNat + 1) (r : PacketRing) :
    r.settle i = r.retire i :=
  if_neg (not_lt.mpr last)

theorem slots_settle (r : PacketRing) (i : UInt64) : (r.settle i).slots = (r.retire i).slots := by
  rw [settle]
  split <;> rfl

/-- The read index has nothing to do with slots. -/
theorem retires_settle (inside : r.place i < r.slots.size) : r.Retires i (r.settle i) := by
  have retires := retires_retire inside
  rw [settle]
  split
  · exact ⟨retires.word, retires.payload, retires.elsewhere, retires.size, retires.writeIndex⟩
  · exact retires

theorem readIndex_settle (r : PacketRing) : (r.settle r.readIndex).readIndex.toNat =
    if r.readIndex.toNat + 1 < 2 ^ 64 then r.readIndex.toNat + 1 else r.readIndex.toNat := by
  rw [settle]
  split
  case isTrue fits => exact (UInt64.toNat_add ..).trans (Nat.mod_eq_of_lt fits)
  case isFalse => rfl

end PacketRing

namespace Session

open Accelerator.Action

variable {s t u : Session} {h k : Handle} {q : Queue} {view : PacketView} {outcome : Consumed}

/-! ### One packet -/

/-- The packet at the read index of a queue was handled. Its completion signal is counted down if
that can be done, its slot is given back, and the read index moves on unless the next index does not
fit. Nothing else changes. -/
structure Consumes (q : Queue) (s : Session) (view : PacketView) (outcome : Consumed)
    (t : Session) : Prop where
  held : s.heldQueue? q.handle = some q
  published : (q.ring.header q.ring.readIndex).isUnpublished = false
  shown : view = .ofWord q.ring q.ring.readIndex (q.ring.word q.ring.readIndex)
  completion : ∀ layout, (view.slot.body layout).completionSignal = view.completion
  completed : outcome = .completed ↔ q.ring.readIndex.toNat + 1 < 2 ^ 64 ∧
    (view.completion = 0 ∨
      s.isOpen = true ∧ ∃ signal, s.signals.get? ⟨view.completion⟩ = some signal)
  failed : ∀ cause, outcome = .failed cause → s.isOpen = true →
    cause = .invalidSignal ⟨view.completion⟩
  overflowed : outcome = .overflowed ↔ q.ring.readIndex.toNat + 1 = 2 ^ 64
  signals : ∀ k, t.signals.get? k = if view.Names k ∧ s.isOpen = true then
    (s.signals.get? k).map fun signal => signal.setValue (signal.value - 1) else s.signals.get? k
  queue : ∃ ring, q.ring.Retires q.ring.readIndex ring ∧
    ring.readIndex.toNat = (if q.ring.readIndex.toNat + 1 < 2 ^ 64 then q.ring.readIndex.toNat + 1
      else q.ring.readIndex.toNat) ∧
    (∀ k, t.heldQueue? k = if k = q.handle then some { q with ring } else s.heldQueue? k) ∧
    ∀ k, t.queues.get? k =
      if k = q.handle then (s.queues.get? k).map fun _ => { q with ring } else s.queues.get? k
  rest : t = { s with signals := t.signals, queues := t.queues }

/-- A signal is found in an open session if it is live. -/
theorem signal_cases (k : Handle) (s : Session) :
    (∃ signal, s.isOpen = true ∧ s.signals.get? k = some signal ∧
        Session.signal k s = (.ok signal, s)) ∨
      ∃ e, (s.isOpen = false ∨ s.signals.get? k = none ∧ e = .invalidSignal k) ∧
        Session.signal k s = (.error e, s) := by
  rw [Session.signal]
  cases isOpen : s.isOpen with
  | false =>
    refine .inr ⟨.notInitialized, .inl rfl, ?_⟩
    simp [ensureOpen, require, bind_apply, isOpen]
  | true =>
    have opened : ensureOpen s = (.ok (), s) := ensureOpen_eq_ok.mpr ⟨isOpen, rfl⟩
    rw [bind_of_ok opened, bind_of_ok (session_apply s)]
    cases live : s.signals.get? k with
    | none => exact .inr ⟨_, .inr ⟨rfl, rfl⟩, rfl⟩
    | some signal => exact .inl ⟨signal, rfl, rfl, rfl⟩

/-- A completion signal is counted down if it is live, and need not be if there is none. -/
theorem complete_cases (completion : UInt64) (s : Session) :
    (completion = 0 ∧ complete completion s = (.ok (), s)) ∨
    (completion ≠ 0 ∧ s.isOpen = true ∧ (∃ signal, s.signals.get? ⟨completion⟩ = some signal) ∧
      complete completion s = (.ok (), s.modifySignal ⟨completion⟩ fun signal =>
        signal.setValue (signal.value - 1))) ∨
    completion ≠ 0 ∧ (s.isOpen = true → s.signals.get? ⟨completion⟩ = none) ∧
      ∃ e, complete completion s = (.error e, s) ∧
        (s.isOpen = true → e = .invalidSignal ⟨completion⟩) := by
  by_cases null : completion = 0
  · exact .inl ⟨null, by rw [complete, if_pos null]; rfl⟩
  refine .inr ?_
  rw [complete, if_neg null, bind_of_ok (session_apply s)]
  cases live : s.signals.get? ⟨completion⟩ with
  | none => exact .inr ⟨null, fun _ => rfl, _, rfl, fun _ => rfl⟩
  | some signal =>
    have counted : (demand (some signal) (.invalidSignal ⟨completion⟩) >>= fun _ =>
        discard (updateSignal ⟨completion⟩ (.subtract 1) .release)) s =
        (updateSignal ⟨completion⟩ (.subtract 1) .release >>= fun _ => pure ()) s := rfl
    rw [counted, updateSignal]
    rcases signal_cases ⟨completion⟩ s with ⟨found, isOpen, -, answer⟩ | ⟨e, closed, answer⟩
    · refine .inl ⟨null, isOpen, ⟨signal, rfl⟩, ?_⟩
      rw [bind_apply, bind_of_ok answer]
      rfl
    · have closed : s.isOpen = false := closed.resolve_right fun stale => by
        cases live.symm.trans stale.1
      refine .inr ⟨null, fun isOpen => ?_, e, ?_, fun isOpen => ?_⟩
      · cases closed.symm.trans isOpen
      · rw [bind_apply, bind_of_error answer]
      · cases closed.symm.trans isOpen

/-- What becomes of signals, and what the answer is, when a packet is completed. -/
theorem complete_spec (v : PacketView) (s : Session) : ∃ answer signals,
    complete v.completion s = (answer, { s with signals }) ∧
    (∀ k, signals.get? k = if v.Names k ∧ s.isOpen = true then
      (s.signals.get? k).map fun signal => signal.setValue (signal.value - 1)
        else s.signals.get? k) ∧
    (answer = .ok () ↔ v.completion = 0 ∨
      s.isOpen = true ∧ ∃ signal, s.signals.get? ⟨v.completion⟩ = some signal) ∧
    ∀ e, answer = .error e → s.isOpen = true → e = .invalidSignal ⟨v.completion⟩ := by
  rcases complete_cases v.completion s with ⟨null, ran⟩ | ⟨names, isOpen, live, ran⟩ |
    ⟨names, stale, e, ran, cause⟩
  · refine ⟨_, s.signals, ran, fun k => ?_, ⟨fun _ => .inl null, fun _ => rfl⟩, nofun⟩
    rw [if_neg fun named => named.1.1 null]
  · refine ⟨_, _, ran, fun k => ?_, ⟨fun _ => .inr ⟨isOpen, live⟩, fun _ => rfl⟩, nofun⟩
    rw [Directory.get?_modify]
    by_cases here : k = ⟨v.completion⟩
    · rw [if_pos here, if_pos ⟨⟨names, here⟩, isOpen⟩, here]
    · rw [if_neg here, if_neg fun named => here named.1.2]
  · refine ⟨_, s.signals, ran, fun k => ?_, ⟨nofun, ?_⟩, fun _ same isOpen => ?_⟩
    · split
      case isTrue named =>
        obtain ⟨⟨-, rfl⟩, isOpen⟩ := named
        rw [stale isOpen]
        rfl
      case isFalse => rfl
    · rintro (null | ⟨isOpen, signal, live⟩)
      · exact absurd null names
      · cases (stale isOpen).symm.trans live
    · cases same
      exact cause isOpen

theorem wellFormed_modifyHeldRing {d : Directory Queue} (wf : d.WellFormed Queue.handle)
    (k : Handle) (f : PacketRing → PacketRing) :
    (d.modifyHeld k (·.modifyRing f)).WellFormed Queue.handle :=
  wf.modifyHeld fun _ => rfl

/-- What a packet leaves of the queues of a session when it was consumed, and what the consumer is
told. -/
theorem consume_spec (held : s.heldQueue? q.handle = some q) (index : UInt64) (word : UInt32) :
    ∃ queues, s.queues.Sets q.handle (q.modifyRing (·.settle index)) queues ∧
      (s.queues.WellFormed Queue.handle → queues.WellFormed Queue.handle) ∧
      s.consume q index word = (.ofWord q.ring index word,
        if index.toNat + 1 < 2 ^ 64 then
          match (complete (PacketView.ofWord q.ring index word).completion s).1 with
          | .ok () => .completed
          | .error cause => .failed cause
        else .overflowed,
        { (complete (PacketView.ofWord q.ring index word).completion s).2 with queues }) := by
  obtain ⟨answer, signals, ran, -⟩ := complete_spec (.ofWord q.ring index word) s
  have retired := Directory.sets_modifyHeld held (·.modifyRing (·.retire index))
  rcases Nat.lt_or_ge (index.toNat + 1) (2 ^ 64) with fits | beyond
  · have moved := retired.trans (Directory.sets_modifyHeld ((retired.held _).trans (if_pos rfl))
      (·.modifyRing (·.setReadIndex (index + 1))))
    rw [Queue.modifyRing, PacketRing.settle_of_fits fits]
    refine ⟨_, moved,
      fun wf => wellFormed_modifyHeldRing (wellFormed_modifyHeldRing wf _ _) _ _, ?_⟩
    rw [consume_of_fits fits, ran, if_pos fits]
    rfl
  · rw [Queue.modifyRing, PacketRing.settle_of_last beyond]
    refine ⟨_, retired, fun wf => wellFormed_modifyHeldRing wf _ _, ?_⟩
    rw [consume_of_last (Nat.le_antisymm index.toNat_lt beyond), ran, if_neg (not_lt.mpr beyond)]
    rfl

/-- Consuming the packet at the read index. -/
theorem consumes_consume (held : s.heldQueue? q.handle = some q)
    (published : (q.ring.header q.ring.readIndex).isUnpublished = false)
    (consumed : s.consume q q.ring.readIndex (q.ring.word q.ring.readIndex) = (view, outcome, t)) :
    Consumes q s view outcome t := by
  obtain ⟨answer, signals, ran, counted, answered, cause⟩ := complete_spec
    (.ofWord q.ring q.ring.readIndex (q.ring.word q.ring.readIndex)) s
  obtain ⟨queues, sets, -, all⟩ := consume_spec held q.ring.readIndex
    (q.ring.word q.ring.readIndex)
  have inside := PacketRing.place_lt_of_published published
  have below := q.ring.readIndex.toNat_lt
  rw [all, ran] at consumed
  cases consumed
  refine ⟨held, published, rfl, fun layout => by cases layout <;> rfl, ?_, ?_, ?_, counted,
    ⟨_, PacketRing.retires_settle inside, q.ring.readIndex_settle, sets.held, sets.live⟩, rfl⟩
  all_goals by_cases fits : q.ring.readIndex.toNat + 1 < 2 ^ 64
  all_goals simp only [fits, ↓reduceIte]
  · rw [← answered]
    rcases answer with e | u <;> simp
  · simp
  · rcases answer with e | u
    · rintro _ ⟨⟩ isOpen
      exact cause e rfl isOpen
    · nofun
  · nofun
  · rcases answer with e | u <;> exact ⟨nofun, fun last => absurd last fits.ne⟩
  · exact ⟨fun _ => by omega, fun _ => trivial⟩

/-- A packet that has not been published stays where it is. -/
theorem tryNext_unpublished (isOpen : s.isOpen = true) (live : s.queues.get? h = some q)
    (unpublished : (q.ring.header q.ring.readIndex).isUnpublished = true) :
    tryNext h s = (.ok none, s) := by
  rw [tryNext_eq isOpen live]
  exact if_pos unpublished

/-- A packet that has been published is consumed. -/
theorem tryNext_published (isOpen : s.isOpen = true) (live : s.queues.get? h = some q)
    (named : q.handle = h) (published : (q.ring.header q.ring.readIndex).isUnpublished = false) :
    ∃ view outcome t, tryNext h s = (.ok (some (view, outcome)), t) ∧
      s.consume q q.ring.readIndex (q.ring.word q.ring.readIndex) = (view, outcome, t) ∧
      Consumes q s view outcome t := by
  subst named
  refine ⟨_, _, _, ?_, rfl, consumes_consume (Directory.held?_of_get? live) published rfl⟩
  rw [tryNext_eq isOpen live]
  exact if_neg (Bool.eq_false_iff.mp published)

/-! ### Nobody else moves the read index -/

/-- The read index of a queue is what it was, whether the queue is still live or not. -/
def SameReadIndex (h : Handle) (s t : Session) : Prop :=
  ∀ q, s.heldQueue? h = some q →
    ∃ q', t.heldQueue? h = some q' ∧ q'.ring.readIndex = q.ring.readIndex

theorem readIndex_storeWriteIndex (k : Handle) (value : UInt64) (order : MemoryOrder) :
    Keeps (SameIn (·.readIndex) h) (storeWriteIndex k value order) := by
  rw [storeWriteIndex_at_once]
  exact (keeps_activeQueue k).bind fun _ => (keeps_liftM _).bind fun _ =>
    keeps_in_modifyRing k fun _ => rfl

theorem readIndex_compareAndSwapWriteIndex (k : Handle) (expected value : UInt64)
    (order : MemoryOrder) :
    Keeps (SameIn (·.readIndex) h) (compareAndSwapWriteIndex k expected value order) := by
  rw [compareAndSwapWriteIndex_at_once]
  exact (keeps_activeQueue k).bind fun _ => (keeps_in_modifyRing k fun r => by
    rw [PacketRing.compareAndSwapWriteIndex]
    split <;> rfl).bind fun _ => keeps_pure _

theorem readIndex_addWriteIndex (k : Handle) (count : UInt64) (order : MemoryOrder) :
    Keeps (SameIn (·.readIndex) h) (addWriteIndex k count order) :=
  addWriteIndex_at_once k count order ▸ (keeps_activeQueue k).bind fun _ =>
    (keeps_in_modifyRing k (f := fun r => (r.addWriteIndex count).2) fun _ => rfl).bind
      fun _ => keeps_pure _

theorem readIndex_reserve (k : Handle) (count : UInt64) :
    Keeps (SameIn (·.readIndex) h) (reserve k count) :=
  keeps_session.bind fun _ => (keeps_demand _ _).bind fun _ => (keeps_require _ _).bind fun _ =>
    (readIndex_addWriteIndex k _ _).bind fun _ => by
      split
      · exact keeps_pure _
      · exact keeps_in_of_routine (keeps_resumeReserve _)

theorem readIndex_submit (k : Handle) (parcel : Parcel) :
    Keeps (SameIn (·.readIndex) h) (submit k parcel) :=
  (readIndex_reserve k 1).bind fun _ => keeps_in_deliverWhenFree (fun _ _ _ => rfl) k _ _

theorem readIndex_barrierAnd (k : Handle) (dependencies : List Handle)
    (completion : Option Handle) :
    Keeps (SameIn (·.readIndex) h) (barrierAnd k dependencies completion) :=
  (keeps_require _ _).bind fun _ => readIndex_submit k _

end Session

/-- The turn sets or moves the read index of a queue. -/
def Turn.MovesReadIndex : Turn → Handle → Prop
  | application (.storeReadIndex k _ _), h | application (.tryNext k), h
  | application (.process k _), h | processor k, h => h = k
  | _, _ => False

namespace Session

variable {s t u : Session} {h k : Handle} {q : Queue} {view : PacketView} {outcome : Consumed}

/-- Producers, and whoever ends a queue, leave its read index to the consumer. -/
theorem Step.sameReadIndex {turn : Turn} (step : Step turn s t)
    (wf : s.queues.WellFormed Queue.handle) (spared : ¬ turn.MovesReadIndex h) :
    SameReadIndex h s t := by
  by_cases touch : turn.Touches h
  case neg => exact (step.changes wf).sameIn wf touch
  cases step with
  | processor => exact absurd touch spared
  | @application _ o =>
    cases o with
    | storeReadIndex | tryNext | process => exact absurd touch spared
    | inactivateQueue k => exact keeps_in_inactivateQueue k s
    | destroyQueue k =>
      obtain rfl : h = k := touch
      exact sameIn_destroyQueue wf h
    | shutDown => exact sameIn_shutDown wf h
    | storeWriteIndex k value order => exact readIndex_storeWriteIndex k value order s
    | compareAndSwapWriteIndex k expected value order =>
      exact readIndex_compareAndSwapWriteIndex k expected value order s
    | addWriteIndex k count order => exact readIndex_addWriteIndex k count order s
    | reserve k count => exact readIndex_reserve k count s
    | writePacket k index packet => exact keeps_in_writePacket (fun _ _ _ => rfl) k index packet s
    | publish k index header companion =>
      exact keeps_in_publish (fun _ _ _ => rfl) k index header companion s
    | submit k parcel => exact readIndex_submit k parcel s
    | resumeSubmit waiting => exact keeps_in_resumeSubmit (fun _ _ _ => rfl) waiting s
    | barrierAnd k dependencies completion =>
      exact readIndex_barrierAnd k dependencies completion s
    | _ => exact touch.elim

/-! ### Runs -/

/-- The runs of a consumer of a queue from a session on, with the packets handled. In between others
take their steps. -/
inductive Consumption (h : Handle) (others : Session → Session → Prop) (s : Session) :
    List (PacketView × Consumed) → Session → Prop where
  | start : Consumption h others s [] s
  | consume {handled : List (PacketView × Consumed)} {t u : Session} {q : Queue}
      {view : PacketView} {outcome : Consumed} (before : Consumption h others s handled t)
      (held : t.heldQueue? h = some q)
      (published : (q.ring.header q.ring.readIndex).isUnpublished = false)
      (consumed : t.consume q q.ring.readIndex (q.ring.word q.ring.readIndex) =
        (view, outcome, u)) :
      Consumption h others s (handled ++ [(view, outcome)]) u
  | elsewhere {handled : List (PacketView × Consumed)} {t u : Session}
      (before : Consumption h others s handled t) (other : others t u) :
      Consumption h others s handled u

/-- The others take steps as they like, but leave the read index of a queue to its consumer. -/
def LeaveReadIndex (h : Handle) (others : Session → Session → Prop) : Prop :=
  ∀ s t, others s t → ∃ turn, Step turn s t ∧ ¬ turn.MovesReadIndex h

namespace Consumption

variable {others : Session → Session → Prop} {handled more : List (PacketView × Consumed)}

theorem trans (first : Consumption h others s handled t)
    (second : Consumption h others t more u) : Consumption h others s (handled ++ more) u := by
  induction second with
  | start =>
    rw [List.append_nil]
    exact first
  | consume _ held published consumed ih =>
    rw [← List.append_assoc]
    exact ih.consume held published consumed
  | elsewhere _ other ih => exact ih.elsewhere other

theorem wellFormed (run : Consumption h others s handled t) (leave : LeaveReadIndex h others)
    (wf : s.queues.WellFormed Queue.handle) : t.queues.WellFormed Queue.handle := by
  induction run with
  | start => exact wf
  | @consume handled t u q view outcome before held _ consumed ih =>
    have named := ih.name_of_held? held
    obtain ⟨queues, -, kept, all⟩ := consume_spec (named ▸ held) q.ring.readIndex
      (q.ring.word q.ring.readIndex)
    cases all.symm.trans consumed
    exact kept ih
  | elsewhere before other ih =>
    obtain ⟨turn, step, -⟩ := leave _ _ other
    exact (step.changes ih).wellFormed ih

/-- Each packet is consumed like any other. -/
theorem each (run : Consumption h others s handled t) (leave : LeaveReadIndex h others)
    (wf : s.queues.WellFormed Queue.handle) :
    ∀ x ∈ handled, ∃ q u v, q.handle = h ∧ Consumes q u x.1 x.2 v := by
  induction run with
  | start => nofun
  | @consume handled t u q view outcome before held published consumed ih =>
    have named := (before.wellFormed leave wf).name_of_held? held
    intro x listed
    rcases List.mem_append.mp listed with earlier | last
    · exact ih x earlier
    · cases List.mem_singleton.mp last
      exact ⟨q, t, u, named, consumes_consume (named ▸ held) published consumed⟩
  | elsewhere _ _ ih => exact ih

/-- As long as no next index is missing, the packets handled are those of the indices from the read
index on, each once and in order, and the read index is behind them. -/
theorem consecutive (run : Consumption h others s handled t) (leave : LeaveReadIndex h others)
    (wf : s.queues.WellFormed Queue.handle) (held : s.heldQueue? h = some q)
    (fit : ∀ x ∈ handled, x.2 ≠ .overflowed) :
    handled.map (·.1.index.toNat) = List.range' q.ring.readIndex.toNat handled.length ∧
      ∃ q', t.heldQueue? h = some q' ∧
        q'.ring.readIndex.toNat = q.ring.readIndex.toNat + handled.length := by
  induction run with
  | start => exact ⟨rfl, q, held, rfl⟩
  | @consume handled t u q₁ view outcome before held₁ published consumed ih =>
    obtain ⟨indices, q₂, held₂, reads⟩ := ih fun x listed => fit x (List.mem_append_left _ listed)
    obtain rfl := Option.some.inj (held₁.symm.trans held₂)
    have named := (before.wellFormed leave wf).name_of_held? held₁
    have consumes := consumes_consume (named ▸ held₁) published consumed
    have fits : q₁.ring.readIndex.toNat + 1 ≠ 2 ^ 64 := fun last =>
      fit _ (List.mem_append_right _ (List.mem_singleton_self _)) (consumes.overflowed.mpr last)
    obtain ⟨ring, -, moved, after, -⟩ := consumes.queue
    have below := q₁.ring.readIndex.toNat_lt
    rw [if_pos (by omega)] at moved
    refine ⟨?_, _, (after h).trans (if_pos named.symm), ?_⟩
    · rw [List.map_append, indices, List.length_append, List.length_singleton,
        List.range'_1_concat, ← reads, consumes.shown]
      rfl
    · rw [List.length_append, List.length_singleton, ← Nat.add_assoc, ← reads]
      exact moved
  | @elsewhere handled t u before other ih =>
    obtain ⟨indices, q₁, held₁, reads⟩ := ih fit
    obtain ⟨turn, step, spared⟩ := leave _ _ other
    obtain ⟨q₂, held₂, same⟩ := step.sameReadIndex (before.wellFormed leave wf) spared q₁ held₁
    exact ⟨indices, q₂, held₂, same ▸ reads⟩

/-- If nobody else has to do with a signal, it is counted down once for each packet that names
it. -/
theorem signals (run : Consumption h others s handled t) (leave : LeaveReadIndex h others)
    (wf : s.queues.WellFormed Queue.handle) (isOpen : s.isOpen = true)
    (apart : ∀ t u, others t u → u.signals.get? k = t.signals.get? k ∧ u.isOpen = t.isOpen) :
    t.isOpen = true ∧ t.signals.get? k = (s.signals.get? k).map fun signal =>
      signal.setValue (signal.value - .ofNat (handled.countP fun x => x.1.Names k)) := by
  induction run with
  | start => simp [isOpen, Signal.setValue]
  | @consume handled t u q₁ view outcome before held₁ published consumed ih =>
    obtain ⟨isOpen, value⟩ := ih
    have named := (before.wellFormed leave wf).name_of_held? held₁
    have consumes := consumes_consume (named ▸ held₁) published consumed
    refine ⟨?_, ?_⟩
    · rw [consumes.rest]
      exact isOpen
    · rw [consumes.signals, List.countP_append, List.countP_singleton, value, isOpen]
      by_cases names : view.Names k
      · simp [names, Function.comp_def, Signal.setValue, Int64.ofNat_add, Int64.sub_sub]
      · simp [names]
  | elsewhere before other ih =>
    obtain ⟨same, sameOpen⟩ := apart _ _ other
    exact ⟨sameOpen.trans ih.1, same.trans ih.2⟩

end Consumption

end Session

end Accelerator
