import Accelerator.Proofs.Packet.Layouts

/-!
# Rings in memory

The slots of a ring lie in memory as 32-bit words, sixteen for each slot, and all that is ever done
to them is to load and to store one word. The slot of an index is found by masking the index, not
by dividing it. Filling a slot stores fifteen words and leaves the first; publishing it and giving
it back store the first word only; reading it loads all sixteen.

This memory and the slots of a `PacketRing` show the same words at every index, and go on doing so
whatever is done to both of them.

## What memory adds to rings

A `PacketRing` replaces a slot as a whole. In memory each word is stored on its own, so other words
must be shown to stay. All of that is in two lemmas, on a word after one store and after several;
the relation between memory and ring is kept by whatever loads and stores words of one slot only.

## Main definitions

* `Slot.wordAt`, `Slot.words`: the words of a slot.
* `RingWords`: the memory of a ring with its two indices, and the operations on it.
* `RingWords.Lays`: the memory holds the slots and the indices of a ring.

## Main results

* `Slot.flatMap_words`: a slot is made of its words.
* `RingWords.load_store`, `RingWords.load_storeFrom`: a word after stores.
* `RingWords.lays_ofSize`: the memory of a new ring.
* `RingWords.Lays.write`, `RingWords.Lays.publish`, `RingWords.Lays.retire`: what is done to slots.
* `RingWords.Lays.read_eq`: what is read.
-/

namespace Accelerator

/-! ### The words of a slot -/

namespace Slot

/-- Words of a slot. -/
def wordCount : Nat := Packet.size / 4

/-- A word of a slot; the first one is the header word. -/
def wordAt (s : Slot) (k : Nat) : UInt32 :=
  Packet.read32 s.bytes (4 * k)

/-- The words of a slot in order. -/
def words (s : Slot) : List UInt32 :=
  (List.range wordCount).map s.wordAt

@[simp] theorem length_words (s : Slot) : s.words.length = wordCount := by
  simp [words]

theorem getElem?_words (s : Slot) {k : Nat} (inside : k < wordCount) :
    s.words[k]? = some (s.wordAt k) := by
  simp [words, inside]

/-- A slot is made of its words. -/
theorem flatMap_words (s : Slot) : s.words.flatMap Packet.word32 = s.bytes := by
  have bytes : ∀ k, Packet.word32 (s.wordAt k) =
      Word.bytes 4 (Word.ofBytes ((s.bytes.drop (0 + 4 * k)).take 4)) := by
    intro k
    rw [Packet.word32, wordAt, Packet.toNat_read32, Nat.zero_add]
  have whole : (PacketField.words ⟨"words", 0, 4, wordCount⟩ s.bytes).flatMap (Word.bytes 4) =
      s.bytes.take Packet.size := by
    rw [PacketField.words_eq, List.drop_zero]
    exact Word.flatMap_split (Nat.le_of_eq s.length_bytes.symm)
  rw [words, List.flatMap_map]
  simp only [bytes]
  rw [PacketField.words, List.flatMap_map] at whole
  rw [whole, ← s.length_bytes, List.take_length]

/-- All words but the first lie in the payload. -/
theorem wordAt_succ (s : Slot) (k : Nat) : s.wordAt (k + 1) = Packet.read32 s.payload (4 * k) := by
  rw [wordAt, payload, Packet.read32, Packet.read32, List.drop_drop, Nat.mul_succ, Nat.add_comm]

theorem wordAt_setWord (s : Slot) (word : UInt32) (k : Nat) :
    (s.setWord word).wordAt k = if k = 0 then word else s.wordAt k := by
  cases k with
  | zero => exact s.word_setWord word
  | succ k => rw [if_neg k.succ_ne_zero, wordAt_succ, wordAt_succ, payload_setWord]

theorem wordAt_setBody (s content : Slot) (k : Nat) :
    (s.setBody content).wordAt k = if k = 0 then s.wordAt k else content.wordAt k := by
  cases k with
  | zero => exact s.word_setBody content
  | succ k => rw [if_neg k.succ_ne_zero, wordAt_succ, wordAt_succ, payload_setBody]

end Slot

/-! ### Memory -/

/-- The memory of a ring: the words of its slots, and its indices. -/
structure RingWords where
  words : Array UInt32
  size : UInt32
  readIndex : UInt64
  writeIndex : UInt64

namespace RingWords

open Slot (wordCount)

/-- The number of an index's slot: its lowest bits. -/
def place (m : RingWords) (index : UInt64) : Nat :=
  (index &&& (m.size.toUInt64 - 1)).toNat

/-- The number of a word among all words. -/
def position (m : RingWords) (index : UInt64) (k : Nat) : Nat :=
  m.place index * wordCount + k

/-- A word of the slot of an index. -/
def load (m : RingWords) (index : UInt64) (k : Nat) : UInt32 :=
  m.words.getD (m.position index k) 0

/-- Stores a word in the slot of an index. -/
def store (m : RingWords) (index : UInt64) (k : Nat) (value : UInt32) : RingWords :=
  { m with words := m.words.setIfInBounds (m.position index k) value }

/-- Stores words behind each other in the slot of an index, from word `k` on. -/
def storeFrom (m : RingWords) (index : UInt64) (k : Nat) : List UInt32 → RingWords
  | [] => m
  | value :: rest => (m.store index k value).storeFrom index (k + 1) rest

/-- Memory of which the first slots are filled with the words of an unpublished one. -/
def blank (size : UInt32) (count : Nat) : RingWords :=
  (List.range count).foldl (fun m i => m.storeFrom (.ofNat i) 0 Slot.unpublished.words)
    ⟨.replicate (size.toNat * wordCount) 0, size, 0, 0⟩

/-- The memory of a new ring. -/
def ofSize (size : UInt32) : RingWords :=
  blank size size.toNat

/-- Fills the slot of an index with the words of a packet, all but the first. -/
def write (m : RingWords) (index : UInt64) (packet : Slot) : RingWords :=
  m.storeFrom index 1 packet.words.tail

/-- Stores the header word of an index. -/
def publish (m : RingWords) (index : UInt64) (header : Header) (companion : UInt16) : RingWords :=
  m.store index 0 (header.word companion)

/-- Stores the first word of an unpublished slot. -/
def retire (m : RingWords) (index : UInt64) : RingWords :=
  m.store index 0 (Slot.unpublished.wordAt 0)

/-- The header word of an index. -/
def word (m : RingWords) (index : UInt64) : UInt32 :=
  m.load index 0

/-- The bytes of the slot of an index. -/
def read (m : RingWords) (index : UInt64) : List UInt8 :=
  (List.range wordCount).flatMap fun k => Packet.word32 (m.load index k)

/-! ### Loads after stores -/

variable {m : RingWords} {i j : UInt64} {k l : Nat}

/-- There is memory for all words of a number of slots that is a power of two. -/
def Shaped (m : RingWords) : Prop :=
  m.size.toNat.isPowerOfTwo ∧ m.words.size = m.size.toNat * wordCount

theorem place_eq (m : RingWords) (i : UInt64) : m.place i = (PacketRing.ofSize m.size).place i := by
  simp [place, PacketRing.place, PacketRing.size, PacketRing.ofSize]

theorem Shaped.place_lt (shaped : m.Shaped) (i : UInt64) : m.place i < m.size.toNat := by
  have below := PacketRing.place_lt (PacketRing.isSized_ofSize shaped.1) i
  rw [place_eq]
  simpa [PacketRing.ofSize] using below

theorem Shaped.position_lt (shaped : m.Shaped) (i : UInt64) (inside : k < wordCount) :
    m.position i k < m.words.size := by
  have row : (m.place i + 1) * wordCount ≤ m.size.toNat * wordCount :=
    Nat.mul_le_mul_right _ (shaped.place_lt i)
  rw [shaped.2, position]
  rw [Nat.succ_mul] at row
  omega

theorem position_eq_iff (hk : k < wordCount) (hl : l < wordCount) :
    m.position i k = m.position j l ↔ m.place i = m.place j ∧ k = l := by
  rw [position, position]
  simp only [show wordCount = 16 from rfl] at hk hl ⊢
  omega

theorem Shaped.store (shaped : m.Shaped) (i : UInt64) (k : Nat) (value : UInt32) :
    (m.store i k value).Shaped :=
  ⟨shaped.1, (Array.size_setIfInBounds ..).trans shaped.2⟩

/-- A word after a store: the word stored, at its place, and as before at all others. -/
theorem load_store (shaped : m.Shaped) (hk : k < wordCount) (hl : l < wordCount) (value : UInt32) :
    (m.store i k value).load j l =
      if m.place i = m.place j ∧ k = l then value else m.load j l := by
  have inside := shaped.position_lt i hk
  simp only [← position_eq_iff hk hl]
  change (m.words.setIfInBounds (m.position i k) value).getD (m.position j l) 0 = _
  rw [load, Array.getD_eq_getD_getElem?, Array.getElem?_setIfInBounds, Array.getD_eq_getD_getElem?]
  by_cases same : m.position i k = m.position j l
  · rw [if_pos same, if_pos inside, if_pos same, Option.getD_some]
  · rw [if_neg same, if_neg same]

theorem Shaped.storeFrom (shaped : m.Shaped) (i : UInt64) (k : Nat) (values : List UInt32) :
    (m.storeFrom i k values).Shaped := by
  induction values generalizing m k with
  | nil => exact shaped
  | cons value rest ih => exact ih (shaped.store i k value) (k + 1)

/-- A word after stores behind each other. -/
theorem load_storeFrom (shaped : m.Shaped) (values : List UInt32)
    (fits : k + values.length ≤ wordCount) (hl : l < wordCount) :
    (m.storeFrom i k values).load j l =
      if m.place i = m.place j ∧ k ≤ l then values[l - k]?.getD (m.load j l) else m.load j l := by
  induction values generalizing m k with
  | nil => simp [RingWords.storeFrom]
  | cons value rest ih =>
    rw [List.length_cons] at fits
    have later := ih (shaped.store i k value) (k := k + 1) (by omega)
    have place : ∀ i', (m.store i k value).place i' = m.place i' := fun _ => rfl
    rw [RingWords.storeFrom, later, load_store shaped (by omega) hl, place, place]
    by_cases same : m.place i = m.place j
    · rcases Nat.lt_trichotomy l k with before | rfl | behind
      · simp [same, Nat.not_le.mpr before, before.ne', Nat.not_le.mpr (before.trans k.lt_succ_self)]
      · simp [same]
      · have next : l - k = l - (k + 1) + 1 := by omega
        simp [same, behind.ne, behind.le, Nat.succ_le_of_lt behind, next]
    · simp [same]

/-- Stores change nothing but the words. -/
theorem storeFrom_eq (m : RingWords) (i : UInt64) (k : Nat) (values : List UInt32) :
    ∃ words, m.storeFrom i k values = { m with words } := by
  induction values generalizing m k with
  | nil => exact ⟨m.words, rfl⟩
  | cons value rest ih =>
    obtain ⟨words, same⟩ := ih (m.store i k value) (k + 1)
    exact ⟨words, same⟩

/-! ### Memory and rings -/

variable {r : PacketRing}

/-- The memory holds the slots of a ring, and its indices. -/
structure Lays (m : RingWords) (r : PacketRing) : Prop where
  shaped : m.Shaped
  size : m.size.toNat = r.slots.size
  load : ∀ i k, k < wordCount → m.load i k = (r.read i).wordAt k
  readIndex : m.readIndex = r.readIndex
  writeIndex : m.writeIndex = r.writeIndex

/-- Slots are filled one after the other, each without the others. -/
theorem blank_spec {size : UInt32} (h : size.toNat.isPowerOfTwo) {count : Nat}
    (below : count ≤ size.toNat) : (∃ words, blank size count = ⟨words, size, 0, 0⟩) ∧
      (blank size count).Shaped ∧ ∀ j l, l < wordCount → (blank size count).place j < count →
        (blank size count).load j l = Slot.unpublished.wordAt l := by
  induction count with
  | zero =>
    have empty : (blank size 0).words.size = size.toNat * wordCount := by simp [blank]
    refine ⟨⟨_, rfl⟩, ⟨h, empty⟩, ?_⟩
    intro _ _ _ none
    exact absurd none (Nat.not_lt_zero _)
  | succ count ih =>
    have next : blank size (count + 1) =
        (blank size count).storeFrom (.ofNat count) 0 Slot.unpublished.words := by
      rw [blank, List.range_succ, List.foldl_append]
      rfl
    obtain ⟨⟨words, same⟩, shaped, before⟩ := ih (Nat.le_of_succ_le below)
    obtain ⟨words', changed⟩ :=
      (blank size count).storeFrom_eq (.ofNat count) 0 Slot.unpublished.words
    have here : (blank size count).place (.ofNat count) = count := by
      rw [place_eq, same, PacketRing.place_ofNat (PacketRing.isSized_ofSize h)]
      exact Nat.mod_eq_of_lt (by simpa [PacketRing.ofSize] using Nat.lt_of_succ_le below)
    have unmoved : ∀ j, (blank size (count + 1)).place j = (blank size count).place j := by
      intro j
      rw [next, changed]
      rfl
    refine ⟨⟨words', by rw [next, changed, same]⟩, next ▸ shaped.storeFrom .., ?_⟩
    intro j l inside low
    have stored := load_storeFrom (i := .ofNat count) (j := j) (k := 0) shaped
      Slot.unpublished.words (by simp) inside
    rw [unmoved] at low
    rw [next, stored, here]
    by_cases own : count = (blank size count).place j
    · rw [if_pos ⟨own, l.zero_le⟩, Nat.sub_zero, Slot.getElem?_words _ inside, Option.getD_some]
    · rw [if_neg fun both => own both.1]
      exact before j l inside (Nat.lt_of_le_of_ne (Nat.le_of_lt_succ low) (Ne.symm own))

/-- The memory of a new ring. -/
theorem lays_ofSize {size : UInt32} (h : size.toNat.isPowerOfTwo) :
    (ofSize size).Lays (.ofSize size) := by
  obtain ⟨⟨words, same⟩, shaped, loads⟩ := blank_spec h le_rfl
  have sized : (ofSize size).size = size := by rw [ofSize, same]
  refine ⟨shaped, by simp [sized, PacketRing.ofSize], fun i k inside => ?_, ?_, ?_⟩
  · have within := shaped.place_lt i
    rw [← ofSize, sized] at within
    rw [ofSize, loads i k inside within]
    simp [PacketRing.read, PacketRing.ofSize, Array.getD]
  · rw [ofSize, same]
    rfl
  · rw [ofSize, same]
    rfl

namespace Lays

theorem isSized (lays : m.Lays r) : r.IsSized :=
  (PacketRing.isSized_ofSize lays.shaped.1).congr (by simp [PacketRing.ofSize, lays.size])

/-- The mask finds the slot that the ring has for an index. -/
theorem place (lays : m.Lays r) (i : UInt64) : m.place i = r.place i := by
  rw [place_eq, PacketRing.place_eq_mod (PacketRing.isSized_ofSize lays.shaped.1),
    PacketRing.place_eq_mod lays.isSized, ← lays.size]
  simp [PacketRing.ofSize]

/-- Memory in which the slot of one index was changed, word for word. -/
theorem modifySlot (lays : m.Lays r) (i : UInt64) {f : Slot → Slot} {words : Array UInt32}
    (shaped : Shaped { m with words })
    (loads : ∀ j l, l < wordCount → RingWords.load { m with words } j l =
      if m.place i = m.place j then (f (r.read i)).wordAt l else m.load j l) :
    Lays { m with words } (r.modifySlot i f) := by
  refine ⟨shaped, lays.size.trans (r.size_modifySlot i f).symm, fun j l inside => ?_,
    lays.readIndex, lays.writeIndex⟩
  rw [loads j l inside, lays.place, lays.place]
  by_cases same : r.place i = r.place j
  · have shown : (r.modifySlot i f).read j = f (r.read i) := by
      rw [← PacketRing.read_modifySlot_self lays.isSized i f, PacketRing.read, PacketRing.read,
        PacketRing.place_modifySlot, PacketRing.place_modifySlot, same]
    rw [if_pos same, shown]
  · rw [if_neg same, PacketRing.read_modifySlot_of_ne same, lays.load j l inside]

/-- A word of the slot of an index is that of every index with the same slot. -/
theorem load_of_place (lays : m.Lays r) (same : m.place i = m.place j) (inside : l < wordCount) :
    m.load j l = (r.read i).wordAt l := by
  rw [lays.place, lays.place] at same
  rw [lays.load j l inside, PacketRing.read_congr same]

/-- Filling a slot. -/
theorem write (lays : m.Lays r) (i : UInt64) (packet : Slot) :
    (m.write i packet).Lays (r.write i packet) := by
  obtain ⟨words, changed⟩ := m.storeFrom_eq i 1 packet.words.tail
  have shaped := lays.shaped.storeFrom i 1 packet.words.tail
  rw [changed] at shaped
  rw [RingWords.write, changed]
  refine lays.modifySlot i shaped fun j l inside => ?_
  have stored := load_storeFrom (i := i) (j := j) (k := 1) lays.shaped
    packet.words.tail (by simp; decide) inside
  rw [← changed, stored]
  by_cases same : m.place i = m.place j
  · have shown := lays.load_of_place same inside
    rw [if_pos same, shown, Slot.wordAt_setBody]
    cases l with
    | zero => simp
    | succ l =>
      rw [if_pos ⟨same, Nat.succ_pos l⟩, Nat.add_sub_cancel, List.getElem?_tail,
        Slot.getElem?_words packet inside, Option.getD_some, if_neg l.succ_ne_zero]
  · rw [if_neg fun both => same both.1, if_neg same]

/-- Storing the first word of a slot. -/
theorem setWord (lays : m.Lays r) (i : UInt64) (word : UInt32) :
    (m.store i 0 word).Lays (r.modifySlot i (·.setWord word)) := by
  refine lays.modifySlot i (lays.shaped.store i 0 word) fun j l inside => ?_
  have stored := load_store (i := i) (j := j) lays.shaped (by decide : 0 < wordCount) inside word
  refine stored.trans ?_
  by_cases same : m.place i = m.place j
  · simp only [same, true_and, if_true, Slot.wordAt_setWord, lays.load_of_place same inside,
      eq_comm (a := 0)]
  · rw [if_neg fun both => same both.1, if_neg same]

theorem publish (lays : m.Lays r) (i : UInt64) (header : Header) (companion : UInt16) :
    (m.publish i header companion).Lays (r.publish i header companion) :=
  lays.setWord i _

theorem retire (lays : m.Lays r) (i : UInt64) : (m.retire i).Lays (r.retire i) :=
  lays.setWord i _

/-- Memory and ring show the same bytes. -/
theorem read_eq (lays : m.Lays r) (i : UInt64) : m.read i = (r.read i).bytes := by
  rw [← (r.read i).flatMap_words, Slot.words, List.flatMap_map, RingWords.read]
  simp only [List.flatMap_def]
  refine congrArg List.flatten (List.map_congr_left fun k inside => ?_)
  rw [lays.load i k (List.mem_range.mp inside)]

end Lays

end RingWords

end Accelerator
