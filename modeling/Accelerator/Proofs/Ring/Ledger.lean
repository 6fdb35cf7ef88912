import Accelerator.Proofs.Ring.Slots
import Accelerator.Session.Producer
import Mathlib.Data.List.Pairwise

/-!
# The ledger of a ring

Producers keep to a protocol: a range of indices is reserved by advancing the write index, seen to
be free, and then each of its slots is filled and published, once. The ledger notes how far they
have come. It is not part of the state: it says which slots a producer may touch, and what a
consumer is to find there.

Indices never stop growing while the ring has few slots, so a slot stands for many indices. What
makes it stand for one of them at a time is the *window*: as many indices as the ring has slots,
from the next one to be consumed. A slot shows what the ledger says of its index in the window;
producers only ever touch indices in the window that are not published yet; and consuming a packet
moves the window by one.

## Ranges that do not go round

The indices of a reservation are told by their numbers, and all numbers stay below `2 ^ 64`, which
is asked of producers when they reserve. What becomes of reservations that do go round is told
elsewhere, without packets.

The stage of an index outside the window says nothing about its slot. Behind the window
`Ledger.Tracks.behind` keeps that the packet was published; ahead of it nothing has come to any
stage, which is why the slot that enters the window is known to be vacant.

## Main definitions

* `Lease`, `Stage`, `Ledger`: reserved indices, how far an index has come, and all of it.
* `Parcel.slot`: the slot of a packet after it was published.
* `Ledger.Tracks`: the ledger agrees with a ring of which so many packets have been consumed.

## Main results

* `Ledger.tracks_ofSize`: a new ring.
* `Ledger.Tracks.reserve`, `Ledger.Tracks.clear`, `Ledger.Tracks.fill`, `Ledger.Tracks.publish`,
  `Ledger.Tracks.consume`: the steps of producers and of a consumer.
* `Ledger.Tracks.lease_eq`: no index is reserved twice.
* `Ledger.Tracks.lt_of_place_eq`: no slot is touched while another packet lies in it.
-/

namespace Accelerator

/-- Consecutive indices that a producer has reserved. -/
structure Lease where
  producer : Nat
  first : UInt64
  count : UInt64

namespace Lease

/-- The index after the last one. -/
def limit (a : Lease) : Nat :=
  a.first.toNat + a.count.toNat

/-- The index is one of those reserved. -/
def Holds (a : Lease) (i : UInt64) : Prop :=
  a.first ≤ i ∧ i.toNat < a.limit

/-- The last index. -/
def last (a : Lease) : UInt64 :=
  a.first + a.count - 1

theorem toNat_last {a : Lease} (pos : 0 < a.count) (fits : a.limit < 2 ^ 64) :
    a.last.toNat + 1 = a.limit := by
  have positive : 0 < a.count.toNat := pos
  have sum : (a.first + a.count).toNat = a.limit := by
    rw [UInt64.toNat_add]
    exact Nat.mod_eq_of_lt fits
  have one : (1 : UInt64) ≤ a.first + a.count := by
    rw [UInt64.le_iff_toNat_le, sum, limit, UInt64.toNat_one]
    omega
  rw [last, UInt64.toNat_sub_of_le _ _ one, sum, UInt64.toNat_one]
  exact Nat.sub_add_cancel (by rw [limit]; omega)

end Lease

/-- The slot of a parcel that has been published. -/
def Parcel.slot (p : Parcel) : Slot :=
  p.packet.setWord (p.header.word p.companion)

/-- How far an index has come. -/
inductive Stage where
  /-- Nothing has been put into its slot. -/
  | vacant
  /-- Its slot was filled with a packet last. -/
  | filled (packet : Slot)
  | published (parcel : Parcel)

namespace Stage

/-- Its slot has been handed over. -/
def IsPublished : Stage → Prop
  | published _ => True
  | vacant | filled _ => False

/-- What the slot of an index shows. -/
def Shows : Stage → Slot → Prop
  | vacant, slot => (Header.ofWord slot.word).isUnpublished = true
  | filled packet, slot =>
    (Header.ofWord slot.word).isUnpublished = true ∧ slot.payload = packet.payload
  | published parcel, slot => slot = parcel.slot ∧ parcel.header.isUnpublished = false

theorem IsPublished.ne_vacant {stage : Stage} (h : stage.IsPublished) : stage ≠ vacant := by
  rintro rfl
  exact h

theorem Shows.unpublished {stage : Stage} {slot : Slot} (h : stage.Shows slot)
    (notYet : ¬ stage.IsPublished) : (Header.ofWord slot.word).isUnpublished = true := by
  cases stage with
  | vacant => exact h
  | filled packet => exact h.1
  | published parcel => exact absurd trivial notYet

end Stage

/-- What producers have done with a queue. -/
structure Ledger where
  /-- The reservations, the last in front. -/
  leases : List Lease
  /-- The reservations of which all slots were seen to be free. -/
  cleared : List Lease
  stage : Nat → Stage

namespace Ledger

/-- Nothing has been done. -/
def fresh : Ledger :=
  ⟨[], [], fun _ => .vacant⟩

/-- The number of indices reserved. -/
def total (l : Ledger) : Nat :=
  (l.leases.map (·.count.toNat)).sum

/-- Indices were reserved. -/
def reserve (l : Ledger) (a : Lease) : Ledger :=
  { l with leases := a :: l.leases }

/-- The slots of a reservation were seen to be free. -/
def clear (l : Ledger) (a : Lease) : Ledger :=
  { l with cleared := a :: l.cleared }

/-- An index has come to a stage. -/
def setStage (l : Ledger) (i : Nat) (stage : Stage) : Ledger :=
  { l with stage := Function.update l.stage i stage }

@[simp] theorem stage_setStage_self (l : Ledger) (i : Nat) (stage : Stage) :
    (l.setStage i stage).stage i = stage :=
  Function.update_self ..

theorem stage_setStage_of_ne {i j : Nat} (h : j ≠ i) (l : Ledger) (stage : Stage) :
    (l.setStage i stage).stage j = l.stage j :=
  Function.update_of_ne h ..

@[simp] theorem total_reserve (l : Ledger) (a : Lease) :
    (l.reserve a).total = a.count.toNat + l.total := rfl

/-- The ledger agrees with a ring of which so many packets have been consumed. -/
structure Tracks (l : Ledger) (r : PacketRing) (consumed : Nat) : Prop where
  sized : r.IsSized
  write : r.writeIndex.toNat = l.total
  read : r.readIndex.toNat = consumed
  leases : ∀ a ∈ l.leases, 0 < a.count ∧ a.limit ≤ l.total
  apart : l.leases.Pairwise fun later earlier => earlier.limit ≤ later.first.toNat
  cleared : ∀ a ∈ l.cleared, a ∈ l.leases ∧ a.limit ≤ consumed + r.slots.size
  stages : ∀ i, l.stage i ≠ .vacant → i < l.total ∧ i < consumed + r.slots.size
  behind : ∀ i < consumed, (l.stage i).IsPublished
  window : ∀ i, consumed ≤ i → i < consumed + r.slots.size →
    (l.stage i).Shows (r.read (.ofNat i))

/-- A new ring has not been touched. -/
theorem tracks_ofSize {size : UInt32} (h : size.toNat.isPowerOfTwo) :
    fresh.Tracks (.ofSize size) 0 where
  sized := PacketRing.isSized_ofSize h
  write := rfl
  read := rfl
  leases := by simp [fresh]
  apart := .nil
  cleared := by simp [fresh]
  stages i h := absurd rfl h
  behind := by simp
  window i _ _ := by
    have blank : (PacketRing.ofSize size).read (.ofNat i) = .unpublished := by
      simp [PacketRing.read, PacketRing.ofSize, Array.getD]
    rw [blank]
    exact isUnpublished_unpublished

namespace Tracks

variable {l : Ledger} {r : PacketRing} {consumed : Nat} {a : Lease} {i : UInt64}

/-! ### What the invariant says -/

theorem total_lt (h : l.Tracks r consumed) : l.total < 2 ^ 64 :=
  h.write ▸ r.writeIndex.toNat_lt

theorem readIndex_eq (h : l.Tracks r consumed) : r.readIndex = .ofNat consumed := by
  rw [← h.read, UInt64.ofNat_toNat]

/-- An index that may be touched lies in the window. -/
theorem inWindow (h : l.Tracks r consumed) (hc : a ∈ l.cleared) (hi : a.Holds i)
    (notYet : ¬ (l.stage i.toNat).IsPublished) :
    consumed ≤ i.toNat ∧ i.toNat < consumed + r.slots.size :=
  ⟨not_lt.mp fun behind => notYet (h.behind _ behind), hi.2.trans_le (h.cleared a hc).2⟩

/-- No index is reserved twice. -/
theorem lease_eq (h : l.Tracks r consumed) {b : Lease} (ha : a ∈ l.leases) (hb : b ∈ l.leases)
    (inA : a.Holds i) (inB : b.Holds i) : a = b := by
  have separate : l.leases.Pairwise fun a b => a.Holds i → b.Holds i → a = b :=
    h.apart.imp fun before later earlier => absurd (earlier.2.trans_le before) (not_lt.mpr later.1)
  have symm : Std.Symm fun a b : Lease => a.Holds i → b.Holds i → a = b :=
    ⟨fun _ _ same one other => (same other one).symm⟩
  exact separate.forall_of_forall (fun _ _ _ _ => rfl) ha hb inA inB

/-- An earlier index of the same slot is at least one round behind. -/
theorem add_size_le (h : l.Tracks r consumed) {i j : Nat}
    (same : r.place (.ofNat j) = r.place (.ofNat i)) (earlier : j < i) :
    j + r.slots.size ≤ i := by
  rw [PacketRing.place_ofNat h.sized, PacketRing.place_ofNat h.sized] at same
  have rounds : r.slots.size ∣ i - j :=
    Nat.dvd_of_mod_eq_zero (Nat.sub_mod_eq_zero_of_mod_eq same.symm)
  have := Nat.le_of_dvd (Nat.sub_pos_of_lt earlier) rounds
  omega

/-- Two indices of the window have different slots. -/
theorem place_ne (h : l.Tracks r consumed) {i j : Nat}
    (hi : consumed ≤ i ∧ i < consumed + r.slots.size)
    (hj : consumed ≤ j ∧ j < consumed + r.slots.size) (ne : i ≠ j) :
    r.place (.ofNat i) ≠ r.place (.ofNat j) := by
  intro same
  rcases Nat.lt_or_gt_of_ne ne with earlier | later
  · have := h.add_size_le same earlier
    omega
  · have := h.add_size_le same.symm later
    omega

/-- An index that may be touched has a slot that shows no packet. -/
theorem header_unpublished (h : l.Tracks r consumed) (hc : a ∈ l.cleared) (hi : a.Holds i)
    (notYet : ¬ (l.stage i.toNat).IsPublished) : (r.header i).isUnpublished = true := by
  have inside := h.inWindow hc hi notYet
  have shown := (h.window _ inside.1 inside.2).unpublished notYet
  rwa [UInt64.ofNat_toNat] at shown

/-- While an index may be touched, the earlier indices of its slot have been consumed, and so has
every packet that was published in its slot. -/
theorem lt_of_place_eq (h : l.Tracks r consumed) (hc : a ∈ l.cleared) (hi : a.Holds i)
    (notYet : ¬ (l.stage i.toNat).IsPublished) {j : Nat} (same : r.place (.ofNat j) = r.place i)
    (before : j < i.toNat ∨ (l.stage j).IsPublished) : j < consumed := by
  have inside := h.inWindow hc hi notYet
  rw [← UInt64.ofNat_toNat (x := i)] at same
  by_contra ahead
  rcases before with earlier | published
  · have := h.add_size_le same earlier
    omega
  · have other : j ≠ i.toNat := fun equal => notYet (equal ▸ published)
    have bounded := h.stages j published.ne_vacant
    exact h.place_ne ⟨not_lt.mp ahead, bounded.2⟩ inside other same

/-! ### Steps of producers -/

theorem reserve (h : l.Tracks r consumed) (producer : Nat) {count : UInt64} (pos : 0 < count)
    (fits : l.total + count.toNat < 2 ^ 64) :
    (l.reserve ⟨producer, r.writeIndex, count⟩).Tracks (r.addWriteIndex count).2 consumed where
  sized := h.sized
  write := by
    rw [total_reserve, PacketRing.addWriteIndex, UInt64.toNat_add, h.write, Nat.add_comm]
    exact Nat.mod_eq_of_lt (by omega)
  read := h.read
  leases a ha := by
    rw [total_reserve]
    rcases List.mem_cons.mp ha with rfl | ha
    · exact ⟨pos, by rw [Lease.limit, h.write]; omega⟩
    · exact ⟨(h.leases a ha).1, (h.leases a ha).2.trans (Nat.le_add_left _ _)⟩
  apart := .cons (fun a ha => (h.leases a ha).2.trans_eq h.write.symm) h.apart
  cleared a ha := ⟨List.mem_cons_of_mem _ (h.cleared a ha).1, (h.cleared a ha).2⟩
  stages i hi := ⟨(h.stages i hi).1.trans_le (Nat.le_add_left _ _), (h.stages i hi).2⟩
  behind := h.behind
  window := h.window

/-- The last index of a reservation is not taken any more, so none of them is. -/
theorem limit_le (h : l.Tracks r consumed) (ha : a ∈ l.leases)
    (free : r.isFullAt a.last = false) : a.limit ≤ consumed + r.slots.size := by
  have last := Lease.toNat_last (h.leases a ha).1 ((h.leases a ha).2.trans_lt h.total_lt)
  by_cases passed : a.last.toNat < consumed
  · omega
  · have between : r.readIndex ≤ a.last := by
      rw [UInt64.le_iff_toNat_le, h.read]
      exact not_lt.mp passed
    have room : ¬ r.size ≤ a.last - r.readIndex := of_decide_eq_false free
    rw [UInt64.le_iff_toNat_le, PacketRing.toNat_size h.sized,
      UInt64.toNat_sub_of_le _ _ between, h.read] at room
    omega

theorem clear (h : l.Tracks r consumed) (ha : a ∈ l.leases) (free : r.isFullAt a.last = false) :
    (l.clear a).Tracks r consumed where
  sized := h.sized
  write := h.write
  read := h.read
  leases := h.leases
  apart := h.apart
  cleared b hb := by
    rcases List.mem_cons.mp hb with rfl | hb
    · exact ⟨ha, h.limit_le ha free⟩
    · exact h.cleared b hb
  stages := h.stages
  behind := h.behind
  window := h.window

/-- Touching an index that may be touched changes what its slot shows, and nothing else in the
window. -/
theorem touch (h : l.Tracks r consumed) (hc : a ∈ l.cleared) (hi : a.Holds i)
    (notYet : ¬ (l.stage i.toNat).IsPublished) {stage : Stage} {f : Slot → Slot}
    (shows : stage.Shows (f (r.read i))) :
    (l.setStage i.toNat stage).Tracks (r.modifySlot i f) consumed where
  sized := by
    obtain ⟨k, small, hk⟩ := h.sized
    exact ⟨k, small, (PacketRing.size_modifySlot r i f).trans hk⟩
  write := h.write
  read := h.read
  leases := h.leases
  apart := h.apart
  cleared b hb := by
    rw [PacketRing.size_modifySlot]
    exact h.cleared b hb
  stages j hj := by
    rw [PacketRing.size_modifySlot]
    by_cases same : j = i.toNat
    · obtain ⟨reserved, inside⟩ := h.cleared a hc
      subst same
      exact ⟨hi.2.trans_le (h.leases a reserved).2, hi.2.trans_le inside⟩
    · rw [stage_setStage_of_ne same] at hj
      exact h.stages j hj
  behind j hj := by
    have other : j ≠ i.toNat := fun same => notYet (same ▸ h.behind j hj)
    rw [stage_setStage_of_ne other]
    exact h.behind j hj
  window j low high := by
    rw [PacketRing.size_modifySlot] at high
    by_cases same : j = i.toNat
    · subst same
      rw [stage_setStage_self, UInt64.ofNat_toNat, PacketRing.read_modifySlot_self h.sized]
      exact shows
    · have apart := h.place_ne (h.inWindow hc hi notYet) ⟨low, high⟩ (Ne.symm same)
      rw [UInt64.ofNat_toNat] at apart
      rw [stage_setStage_of_ne same, PacketRing.read_modifySlot_of_ne apart]
      exact h.window j low high

theorem fill (h : l.Tracks r consumed) (hc : a ∈ l.cleared) (hi : a.Holds i)
    (notYet : ¬ (l.stage i.toNat).IsPublished) (packet : Slot) :
    (l.setStage i.toNat (.filled packet)).Tracks (r.write i packet) consumed := by
  refine h.touch hc hi notYet ⟨?_, Slot.payload_setBody _ _⟩
  rw [Slot.word_setBody]
  exact h.header_unpublished hc hi notYet

theorem publish (h : l.Tracks r consumed) (hc : a ∈ l.cleared) (hi : a.Holds i) {packet : Slot}
    (filled : l.stage i.toNat = .filled packet) {header : Header}
    (proper : header.isUnpublished = false) (companion : UInt16) :
    (l.setStage i.toNat (.published ⟨packet, header, companion⟩)).Tracks
      (r.publish i header companion) consumed := by
  have notYet : ¬ (l.stage i.toNat).IsPublished := by rw [filled]; exact id
  have inside := h.inWindow hc hi notYet
  have shown := h.window _ inside.1 inside.2
  rw [UInt64.ofNat_toNat, filled] at shown
  refine h.touch hc hi notYet ⟨Slot.eq_of_word_payload ?_ ?_, proper⟩
  · rw [Parcel.slot, Slot.word_setWord, Slot.word_setWord]
  · rw [Parcel.slot, Slot.payload_setWord, Slot.payload_setWord, shown.2]

/-! ### Steps of a consumer -/

/-- The consumer finds what the ledger says. -/
theorem shows_head (h : l.Tracks r consumed) :
    (l.stage consumed).Shows (r.read r.readIndex) := by
  have head := h.window consumed le_rfl (Nat.lt_add_of_pos_right h.sized.pos)
  rwa [← h.readIndex_eq] at head

/-- What the consumer takes for a packet is one that was published. -/
theorem published_of_header (h : l.Tracks r consumed)
    (shown : (r.header r.readIndex).isUnpublished = false) :
    ∃ parcel, l.stage consumed = .published parcel ∧ r.read r.readIndex = parcel.slot := by
  have head := h.shows_head
  cases stage : l.stage consumed with
  | vacant | filled =>
    rw [stage] at head
    cases shown.symm.trans (head.unpublished id)
  | published parcel =>
    rw [stage] at head
    exact ⟨parcel, rfl, head.1⟩

/-- The slot of a packet that was consumed shows no packet until a later one is published in it. -/
theorem retired (h : l.Tracks r consumed) {j : Nat} (done : j < consumed)
    (free : ∀ k, consumed ≤ k → r.place (.ofNat k) = r.place (.ofNat j) →
      ¬ (l.stage k).IsPublished) : (r.header (.ofNat j)).isUnpublished = true := by
  have pos := h.sized.pos
  obtain ⟨rounds, low, high⟩ : ∃ rounds, consumed ≤ j + r.slots.size * rounds ∧
      j + r.slots.size * rounds < consumed + r.slots.size := by
    have whole := Nat.div_add_mod (consumed - j + (r.slots.size - 1)) r.slots.size
    have rest := Nat.mod_lt (consumed - j + (r.slots.size - 1)) pos
    refine ⟨(consumed - j + (r.slots.size - 1)) / r.slots.size, ?_, ?_⟩ <;> omega
  have same : r.place (.ofNat (j + r.slots.size * rounds)) = r.place (.ofNat j) := by
    rw [PacketRing.place_ofNat h.sized, PacketRing.place_ofNat h.sized,
      Nat.add_mul_mod_self_left]
  have shown := (h.window _ low high).unpublished (free _ low same)
  rwa [PacketRing.read, same] at shown

/-- The index of a published packet does not leave 64 bits when it is counted up. -/
theorem add_one_lt (h : l.Tracks r consumed) (published : (l.stage consumed).IsPublished) :
    consumed + 1 < 2 ^ 64 := by
  have bounded := h.stages consumed published.ne_vacant
  have := h.total_lt
  omega

/-- The index that enters the window has the slot that is given back. -/
theorem shows_entering (h : l.Tracks r consumed) :
    (l.stage (consumed + r.slots.size)).Shows
      ((r.retire r.readIndex).read (.ofNat (consumed + r.slots.size))) := by
  have vacant : l.stage (consumed + r.slots.size) = .vacant := by
    by_contra used
    exact lt_irrefl _ (h.stages _ used).2
  have same : r.place (.ofNat (consumed + r.slots.size)) = r.place r.readIndex := by
    rw [h.readIndex_eq, PacketRing.place_ofNat h.sized, PacketRing.place_ofNat h.sized,
      Nat.add_mod_right]
  have slot : (r.retire r.readIndex).read (.ofNat (consumed + r.slots.size)) =
      (r.retire r.readIndex).read r.readIndex := by
    rw [PacketRing.read, PacketRing.read, PacketRing.retire, PacketRing.place_modifySlot,
      PacketRing.place_modifySlot, same]
  rw [vacant, slot, PacketRing.retire, PacketRing.read_modifySlot_self h.sized]
  change (Header.ofWord (Slot.word (Slot.setWord _ _))).isUnpublished = true
  rw [Slot.word_setWord]
  exact isUnpublished_unpublished

/-- Consuming the packet of the read index moves the window by one. -/
theorem consume (h : l.Tracks r consumed) (published : (l.stage consumed).IsPublished) :
    l.Tracks ((r.retire r.readIndex).setReadIndex (r.readIndex + 1)) (consumed + 1) where
  sized := by
    obtain ⟨k, small, hk⟩ := h.sized
    exact ⟨k, small, (PacketRing.size_modifySlot r _ _).trans hk⟩
  write := h.write
  read := by
    change (r.readIndex + 1).toNat = _
    rw [UInt64.toNat_add, h.read]
    exact Nat.mod_eq_of_lt (h.add_one_lt published)
  leases := h.leases
  apart := h.apart
  cleared b hb := by
    obtain ⟨reserved, inside⟩ := h.cleared b hb
    change _ ∧ _ ≤ _ + (r.retire r.readIndex).slots.size
    rw [PacketRing.retire, PacketRing.size_modifySlot]
    exact ⟨reserved, by omega⟩
  stages j hj := by
    have := h.stages j hj
    change _ ∧ _ < _ + (r.retire r.readIndex).slots.size
    rw [PacketRing.retire, PacketRing.size_modifySlot]
    omega
  behind j hj := by
    rcases Nat.lt_succ_iff_lt_or_eq.mp hj with earlier | rfl
    · exact h.behind j earlier
    · exact published
  window j low high := by
    change j < _ + (r.retire r.readIndex).slots.size at high
    change (l.stage j).Shows ((r.retire r.readIndex).read (.ofNat j))
    rw [PacketRing.retire, PacketRing.size_modifySlot] at high
    by_cases entering : j = consumed + r.slots.size
    · subst entering
      exact h.shows_entering
    -- the others were in the window before, and their slots are not the one that is given back
    · have apart := h.place_ne ⟨le_rfl, Nat.lt_add_of_pos_right h.sized.pos⟩
        ⟨by omega, by omega⟩ (by omega : consumed ≠ j)
      rw [← h.readIndex_eq] at apart
      rw [PacketRing.retire, PacketRing.read_modifySlot_of_ne apart]
      exact h.window j (by omega) (by omega)

end Tracks

end Ledger

end Accelerator
