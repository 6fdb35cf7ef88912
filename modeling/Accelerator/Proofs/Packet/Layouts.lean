import Accelerator.Packet.Field
import Accelerator.Proofs.Ring.Slots
import Accelerator.Queue

/-!
# Layouts of packets

A packet and its 64 bytes are two forms of the same thing, for each of the four layouts. Neither
direction is compared with the other field by field. Both are compared with the table of fields: the
bytes of a packet are those of its fields one behind the other, and the fields of the packet that
bytes decode to are what the bytes hold at the offsets of the table. A table that covers the slot
without gaps and without overlaps makes the two inverse to each other.

The first two fields are the header word, in every layout, and the last one is the handle of the
completion signal, which can therefore be read before the layout is known.

## Main definitions

* `PacketField.Tiles`: fields cover a range, each beginning where the one before it ends.
* `Body.words`: the words in the fields of a packet, in the order of the table.
* `Body.header`, `Body.companion`: the first two fields.

## Main results

* `Layout.tiles`, `PacketField.Tiles.existsUnique`: each byte of a slot belongs to one field.
* `PacketField.Tiles.flatten_words`, `PacketField.Tiles.words_flatten`: fields and bytes.
* `Body.ofBytes_bytes`, `Body.bytes_ofBytes`: packets and bytes.
* `Slot.word_ofBody`: the header word of a packet.
* `Slot.body_ofBody`, `Slot.ofBody_body`: the two inverses, for slots.
* `Slot.layouts_biject_with_fields`: all of it.
* `PacketView.body?_eq_some_iff`: the packet that a consumer is shown.
-/

namespace Accelerator

/-! ### Words behind each other -/

namespace Word

/-- The numbers that bytes spell, `width` bytes each. -/
def split (width : Nat) : Nat → List UInt8 → List Nat
  | 0, _ => []
  | count + 1, bs => ofBytes (bs.take width) :: split width count (bs.drop width)

@[simp] theorem length_split (width count : Nat) (bs : List UInt8) :
    (split width count bs).length = count := by
  induction count generalizing bs with
  | zero => rfl
  | succ count ih => simp [split, ih]

theorem flatMap_split {width count : Nat} {bs : List UInt8} (fits : width * count ≤ bs.length) :
    (split width count bs).flatMap (bytes width) = bs.take (width * count) := by
  induction count generalizing bs with
  | zero => simp [split]
  | succ count ih =>
    rw [Nat.mul_succ] at fits ⊢
    have first : (bs.take width).length = width := by
      rw [List.length_take]
      omega
    have spelled := bytes_ofBytes (bs.take width)
    rw [first] at spelled
    rw [split, List.flatMap_cons, spelled, ih (by rw [List.length_drop]; omega), Nat.add_comm,
      List.take_add]

theorem split_flatMap {width : Nat} {ws : List Nat} (small : ∀ w ∈ ws, w < 256 ^ width)
    (rest : List UInt8) :
    split width ws.length (ws.flatMap (bytes width) ++ rest) = ws := by
  induction ws with
  | nil => rfl
  | cons w ws ih =>
    have first : (bytes width w).length = width := length_bytes width w
    have later := ih fun v member => small v (.tail _ member)
    rw [List.length_cons, split, List.flatMap_cons, List.append_assoc, List.take_left' first,
      List.drop_left' first, later, ofBytes_bytes, Nat.mod_eq_of_lt (small w (.head _))]

end Word

/-! ### Fields behind each other -/

namespace PacketField

/-- As many words as a field has, each of its width. -/
def Fits (d : PacketField) (ws : List Nat) : Prop :=
  ws.length = d.count ∧ ∀ w ∈ ws, w < 256 ^ d.width

theorem words_eq (d : PacketField) (bs : List UInt8) :
    d.words bs = Word.split d.width d.count (bs.drop d.offset) := by
  obtain ⟨name, offset, width, count⟩ := d
  rw [words]
  induction count generalizing offset with
  | zero => rfl
  | succ count ih =>
    have shift : ∀ i, offset + width * (i + 1) = offset + width + width * i := by
      intro i
      rw [Nat.mul_succ]
      omega
    simp only [List.range_succ_eq_map, List.map_cons, List.map_map, Word.split, List.drop_drop]
    rw [← ih (offset + width)]
    simp only [Function.comp_def, Nat.succ_eq_add_one, shift, Nat.mul_zero, Nat.add_zero]

theorem bytes_eq {d : PacketField} {ws : List Nat} (sized : ws.length = d.count) :
    d.bytes ws = ws.flatMap (Word.bytes d.width) := by
  have same : (List.range ws.length).map (fun i => ws.getD i 0) = ws := by
    refine List.ext_getElem (by simp) fun i _ inside => ?_
    simp [inside]
  rw [bytes, ← sized]
  conv_rhs => rw [← same, List.flatMap_map]

theorem length_words (d : PacketField) (bs : List UInt8) : (d.words bs).length = d.count := by
  rw [words_eq, Word.length_split]

/-- Fields cover the range from `start` to `stop`, each beginning where the one before it ends. -/
def Tiles (start : Nat) : List PacketField → Nat → Prop
  | [], stop => start = stop
  | d :: rest, stop => d.offset = start ∧ Tiles (start + d.length) rest stop

instance decidableTiles : (start : Nat) → (fields : List PacketField) → (stop : Nat) →
    Decidable (Tiles start fields stop)
  | start, [], stop => inferInstanceAs (Decidable (start = stop))
  | start, d :: rest, stop =>
    have := decidableTiles (start + d.length) rest stop
    inferInstanceAs (Decidable (d.offset = start ∧ Tiles (start + d.length) rest stop))

namespace Tiles

variable {start stop : Nat} {fields : List PacketField}

theorem bounds (tiles : Tiles start fields stop) :
    start ≤ stop ∧ ∀ d ∈ fields, start ≤ d.offset := by
  induction fields generalizing start with
  | nil => exact ⟨Nat.le_of_eq tiles, by simp⟩
  | cons d rest ih =>
    obtain ⟨here, behind⟩ := tiles
    obtain ⟨within, later⟩ := ih behind
    refine ⟨by omega, fun e member => ?_⟩
    rcases List.mem_cons.mp member with rfl | member
    · exact here.ge
    · have := later e member
      omega

/-- Each byte belongs to one field: there are no gaps, and no two fields share a byte. -/
theorem existsUnique (tiles : Tiles start fields stop) {j : Nat} (above : start ≤ j)
    (below : j < stop) :
    ∃! d, d ∈ fields ∧ d.offset ≤ j ∧ j < d.offset + d.length := by
  induction fields generalizing start with
  | nil =>
    have : start = stop := tiles
    omega
  | cons d rest ih =>
    obtain ⟨here, behind⟩ := tiles
    by_cases inside : j < start + d.length
    · refine ⟨d, ⟨.head _, by omega, by omega⟩, ?_⟩
      rintro e ⟨member, starts, -⟩
      rcases List.mem_cons.mp member with rfl | later
      · rfl
      · have := behind.bounds.2 e later
        omega
    · obtain ⟨e, ⟨member, holds⟩, only⟩ := ih behind (not_lt.mp inside)
      refine ⟨e, ⟨.tail _ member, holds⟩, ?_⟩
      rintro f ⟨member, starts, ends⟩
      rcases List.mem_cons.mp member with rfl | later
      · omega
      · exact only f ⟨later, starts, ends⟩

/-- The bytes of all fields, filled with the words that a slot holds, are the bytes of the slot. -/
theorem flatten_words (tiles : Tiles start fields stop) {bs : List UInt8}
    (sized : bs.length = stop) :
    (fields.map fun d => d.bytes (d.words bs)).flatten = bs.drop start := by
  induction fields generalizing start with
  | nil =>
    have all : start = stop := tiles
    rw [List.drop_eq_nil_of_le (by omega)]
    rfl
  | cons d rest ih =>
    obtain ⟨here, behind⟩ := tiles
    have room := behind.bounds.1
    rw [length] at room
    rw [List.map_cons, List.flatten_cons, ih behind, bytes_eq (d.length_words bs), words_eq, here,
      Word.flatMap_split (by rw [List.length_drop]; omega), length, ← List.drop_drop,
      List.take_append_drop]

/-- Words that were put into the fields are found there. -/
theorem words_flatten (tiles : Tiles start fields stop) {values : List (List Nat)}
    (fit : List.Forall₂ Fits fields values) (front : List UInt8) (sized : front.length = start) :
    fields.map (·.words (front ++ (List.zipWith bytes fields values).flatten)) = values := by
  induction fit generalizing start front with
  | nil => rfl
  | @cons d ws rest values fits _ ih =>
    obtain ⟨here, behind⟩ := tiles
    have first : d.words (front ++ (d.bytes ws ++ (List.zipWith bytes rest values).flatten)) =
        ws := by
      rw [words_eq, here, List.drop_left' sized, bytes_eq fits.1, ← fits.1,
        Word.split_flatMap fits.2]
    have before : (front ++ d.bytes ws).length = start + d.length := by
      rw [List.length_append, sized, length_bytes]
    have later := ih behind _ before
    rw [List.append_assoc] at later
    rw [List.zipWith_cons_cons, List.flatten_cons, List.map_cons, first, later]

end Tiles

end PacketField

/-- The fields of a layout fill a slot. -/
theorem Layout.tiles (l : Layout) : PacketField.Tiles 0 l.fields Packet.size := by
  cases l <;> decide

/-! ### Packets and their fields -/

namespace Packet

variable (bs : List UInt8) (offset : Nat)

theorem toNat_read16 : (read16 bs offset).toNat = Word.ofBytes ((bs.drop offset).take 2) := by
  have small := Word.ofBytes_lt ((bs.drop offset).take 2)
  have count : ((bs.drop offset).take 2).length ≤ 2 := List.length_take_le ..
  exact UInt16.toNat_ofNat_of_lt'
    (small.trans_le (Nat.pow_le_pow_right (by decide : 0 < 256) count))

theorem toNat_read32 : (read32 bs offset).toNat = Word.ofBytes ((bs.drop offset).take 4) := by
  have small := Word.ofBytes_lt ((bs.drop offset).take 4)
  have count : ((bs.drop offset).take 4).length ≤ 4 := List.length_take_le ..
  exact UInt32.toNat_ofNat_of_lt'
    (small.trans_le (Nat.pow_le_pow_right (by decide : 0 < 256) count))

theorem toNat_read64 : (read64 bs offset).toNat = Word.ofBytes ((bs.drop offset).take 8) := by
  have small := Word.ofBytes_lt ((bs.drop offset).take 8)
  have count : ((bs.drop offset).take 8).length ≤ 8 := List.length_take_le ..
  exact UInt64.toNat_ofNat_of_lt'
    (small.trans_le (Nat.pow_le_pow_right (by decide : 0 < 256) count))

end Packet

namespace Body

open Packet

/-- The words in the fields of a packet, in the order of the fields. -/
def words : Body → List (List Nat)
  | kernel p =>
    [[p.header.toNat], [p.setup.toNat], p.workgroup.toList.map (·.toNat), [p.reserved0.toNat],
      p.grid.toList.map (·.toNat), [p.privateSegmentSize.toNat], [p.groupSegmentSize.toNat],
      [p.kernelObject.toNat], [p.kernargAddress.toNat], [p.reserved2.toNat],
      [p.completionSignal.toNat]]
  | agent p =>
    [[p.header.toNat], [p.functionType.toNat], [p.reserved0.toNat], [p.returnAddress.toNat],
      p.arguments.toList.map (·.toNat), [p.reserved2.toNat], [p.completionSignal.toNat]]
  | barrierAnd p | barrierOr p =>
    [[p.header.toNat], [p.reserved0.toNat], [p.reserved1.toNat],
      p.dependencies.toList.map (·.toNat), [p.reserved2.toNat], [p.completionSignal.toNat]]

/-- The first field. -/
def header : Body → Header
  | kernel p => ⟨p.header⟩
  | agent p => ⟨p.header⟩
  | barrierAnd p | barrierOr p => ⟨p.header⟩

/-- The second field. -/
def companion : Body → UInt16
  | kernel p => p.setup
  | agent p => p.functionType
  | barrierAnd p | barrierOr p => p.reserved0

@[simp] theorem layout_ofBytes (l : Layout) (bs : List UInt8) : (ofBytes l bs).layout = l := by
  cases l <;> rfl

/-- The words of a packet fit the fields of its layout. -/
theorem fits_words (p : Body) : List.Forall₂ PacketField.Fits p.layout.fields p.words := by
  have small16 : ∀ v : UInt16, v.toNat < 65536 := fun v => v.toNat_lt
  have small32 : ∀ v : UInt32, v.toNat < 4294967296 := fun v => v.toNat_lt
  have small64 : ∀ v : UInt64, v.toNat < 18446744073709551616 := fun v => v.toNat_lt
  cases p with
  | kernel p =>
    simp [words, layout, Layout.fields, PacketField.Fits, Dim3.toList, small16, small32, small64]
  | agent p => simp [words, layout, Layout.fields, PacketField.Fits, small16, small32, small64]
  | barrierAnd p | barrierOr p =>
    simp [words, layout, Layout.fields, PacketField.Fits, small16, small32, small64]

/-- A field of as many 64-bit words as a vector has. -/
theorem bytes_vector {count : Nat} (name : String) (offset : Nat) (v : Vector UInt64 count) :
    PacketField.bytes ⟨name, offset, 8, count⟩ (v.toList.map (·.toNat)) =
      v.toList.flatMap word64 := by
  rw [PacketField.bytes_eq (by simp), List.flatMap_map]
  rfl

theorem words_vector (name : String) (offset count : Nat) (bs : List UInt8) :
    PacketField.words ⟨name, offset, 8, count⟩ bs =
      (Vector.ofFn fun i : Fin count => read64 bs (offset + 8 * i)).toList.map (·.toNat) :=
  List.ext_getElem (by simp [PacketField.words]) fun i _ _ => by
    simp [PacketField.words, toNat_read64]

/-- The bytes of a packet are those of its fields. -/
theorem bytes_eq_flatten (p : Body) :
    p.bytes = (List.zipWith PacketField.bytes p.layout.fields p.words).flatten := by
  cases p with
  | kernel p =>
    simp [bytes, KernelDispatch.bytes, layout, Layout.fields, words, PacketField.bytes,
      Dim3.toList, List.range_succ, word16, word32, word64]
  | agent p =>
    simp only [bytes, AgentDispatch.bytes, layout, Layout.fields, words, List.zipWith_cons_cons,
      bytes_vector "arg"]
    simp [PacketField.bytes, List.range_succ, word16, word32, word64]
  | barrierAnd p | barrierOr p =>
    simp only [bytes, Barrier.bytes, layout, Layout.fields, words, List.zipWith_cons_cons,
      bytes_vector "dep_signal"]
    simp [PacketField.bytes, List.range_succ, word16, word32, word64]

/-- The packet that bytes decode to has in its fields what the bytes hold there. -/
theorem words_ofBytes (l : Layout) (bs : List UInt8) :
    (ofBytes l bs).words = l.fields.map (·.words bs) := by
  cases l with
  | kernel =>
    simp [words, ofBytes, KernelDispatch.ofBytes, Layout.fields, PacketField.words, Dim3.toList,
      toNat_read16, toNat_read32, toNat_read64, List.range_succ]
  | agent =>
    simp only [words, ofBytes, AgentDispatch.ofBytes, Layout.fields, List.map_cons,
      words_vector "arg"]
    simp [PacketField.words, toNat_read16, toNat_read32, toNat_read64, List.range_succ]
  | barrierAnd | barrierOr =>
    simp only [words, ofBytes, Barrier.ofBytes, Layout.fields, List.map_cons,
      words_vector "dep_signal"]
    simp [PacketField.words, toNat_read16, toNat_read32, toNat_read64, List.range_succ]

theorem eq_of_map_toNat {count : Nat} {v w : Vector UInt64 count}
    (same : v.toList.map (·.toNat) = w.toList.map (·.toNat)) : v = w :=
  Vector.toList_inj.mp ((List.map_inj_right fun _ _ => UInt64.toNat_inj.mp).mp same)

theorem eq_of_words_barrier {p q : Barrier}
    (same : (barrierAnd p).words = (barrierAnd q).words) : p = q := by
  obtain ⟨_, _, _, dependencies, _, _⟩ := p
  obtain ⟨_, _, _, dependencies', _, _⟩ := q
  simp only [words, List.cons.injEq, UInt16.toNat_inj, UInt32.toNat_inj, UInt64.toNat_inj]
    at same
  have vector : dependencies = dependencies' := eq_of_map_toNat same.2.2.2.1
  simp only [Barrier.mk.injEq]
  tauto

/-- A packet is determined by its layout and its fields. -/
theorem eq_of_words {p q : Body} (sameLayout : p.layout = q.layout) (same : p.words = q.words) :
    p = q := by
  cases p <;> cases q <;> cases sameLayout
  case kernel p q =>
    obtain ⟨_, _, ⟨_, _, _⟩, _, ⟨_, _, _⟩, _⟩ := p
    obtain ⟨_, _, ⟨_, _, _⟩, _, ⟨_, _, _⟩, _⟩ := q
    simp only [words, Dim3.toList, List.map_cons, List.cons.injEq, UInt16.toNat_inj,
      UInt32.toNat_inj, UInt64.toNat_inj] at same
    simp only [kernel.injEq, KernelDispatch.mk.injEq, Dim3.mk.injEq]
    tauto
  case agent p q =>
    obtain ⟨_, _, _, _, arguments, _, _⟩ := p
    obtain ⟨_, _, _, _, arguments', _, _⟩ := q
    simp only [words, List.cons.injEq, UInt16.toNat_inj, UInt32.toNat_inj, UInt64.toNat_inj]
      at same
    have vector : arguments = arguments' := eq_of_map_toNat same.2.2.2.2.1
    simp only [agent.injEq, AgentDispatch.mk.injEq]
    tauto
  case barrierAnd p q => exact congrArg barrierAnd (eq_of_words_barrier same)
  case barrierOr p q => exact congrArg barrierOr (eq_of_words_barrier same)

/-- The packet that a packet's bytes decode to is the same packet. -/
theorem ofBytes_bytes (p : Body) : ofBytes p.layout p.bytes = p := by
  refine eq_of_words (layout_ofBytes ..) ?_
  have found := p.layout.tiles.words_flatten p.fits_words [] rfl
  rw [words_ofBytes, bytes_eq_flatten]
  exact found

/-- Bytes are those of the packet that they decode to. -/
theorem bytes_ofBytes (l : Layout) {bs : List UInt8} (sized : bs.length = Packet.size) :
    (ofBytes l bs).bytes = bs := by
  rw [bytes_eq_flatten, layout_ofBytes, words_ofBytes, List.zipWith_map_right, List.zipWith_self]
  exact l.tiles.flatten_words sized

/-- The first two fields are the first four bytes. -/
theorem take_bytes (p : Body) :
    p.bytes.take 4 = word16 p.header.bits ++ word16 p.companion := by
  have front : (word16 p.header.bits ++ word16 p.companion).length = 4 := by simp
  cases p <;>
    simp only [bytes, KernelDispatch.bytes, AgentDispatch.bytes, Barrier.bytes,
      List.append_assoc] <;>
    rw [← List.append_assoc] <;>
    exact List.take_left' front

end Body

/-! ### Slots -/

namespace Slot

open Packet

/-- The header word of a packet is made of its first two fields. -/
theorem word_ofBody (p : Body) : (ofBody p).word = p.header.word p.companion := by
  refine UInt32.toNat_inj.mp ?_
  have spelled : ∀ v : UInt16, Word.ofBytes (word16 v) = v.toNat := fun v => by
    rw [word16, Word.ofBytes_bytes]
    exact Nat.mod_eq_of_lt v.toNat_lt
  rw [word, toNat_read32, List.drop_zero, ofBody, p.take_bytes, Word.ofBytes_append, spelled,
    spelled, length_word16, Header.toNat_word]
  rfl

/-- The packet that is in the slot of a packet is that packet. -/
theorem body_ofBody (p : Body) : (ofBody p).body p.layout = p :=
  Body.ofBytes_bytes p

/-- A slot is that of the packet which is in it, in every layout. -/
theorem ofBody_body (l : Layout) (s : Slot) : ofBody (s.body l) = s :=
  Slot.ext (Body.bytes_ofBytes l s.length_bytes)

/-- The table of a layout tells what is in the slot of a packet. -/
theorem words_ofBody (p : Body) : p.layout.fields.map (·.words (ofBody p).bytes) = p.words := by
  rw [← Body.words_ofBytes]
  exact congrArg Body.words p.ofBytes_bytes

/-- The header word of a packet gives back the two fields that it is made of. -/
theorem header_and_companion_of_word (p : Body) :
    Header.ofWord (ofBody p).word = p.header ∧ companionOfWord (ofBody p).word = p.companion := by
  rw [word_ofBody, Header.ofWord_word, companionOfWord_word]
  exact ⟨rfl, rfl⟩

/-- The handle of the completion signal is in one place, whatever the layout. -/
theorem completion_eq_completionSignal (v : PacketView) (l : Layout) :
    v.completion = (v.slot.body l).completionSignal := by
  cases l <;> rfl

/-- Packets of each layout and the contents of slots are in one-to-one correspondence, and the
fields are where the table of the layout has them, each byte in one of them. The header word of a
slot is that of the first two fields and gives them back. The handle of the completion signal is
read from a slot as from the packet of any layout. -/
theorem layouts_biject_with_fields :
    (∀ p : Body, (ofBody p).body p.layout = p) ∧
    (∀ (l : Layout) (s : Slot), (s.body l).layout = l ∧ ofBody (s.body l) = s) ∧
    (∀ (l : Layout) (j : Fin Packet.size),
      ∃! d, d ∈ l.fields ∧ d.offset ≤ j ∧ j < d.offset + d.length) ∧
    (∀ p : Body, p.layout.fields.map (·.words (ofBody p).bytes) = p.words) ∧
    (∀ p : Body, (ofBody p).word = p.header.word p.companion ∧
      Header.ofWord (ofBody p).word = p.header ∧ companionOfWord (ofBody p).word = p.companion) ∧
    (∀ (v : PacketView) (l : Layout), v.completion = (v.slot.body l).completionSignal) :=
  ⟨body_ofBody, fun l s => ⟨Body.layout_ofBytes .., ofBody_body l s⟩,
    fun l j => l.tiles.existsUnique (Nat.zero_le _) j.isLt, words_ofBody,
    fun p => ⟨word_ofBody p, header_and_companion_of_word p⟩, completion_eq_completionSignal⟩

end Slot

/-! ### Packets as consumers see them -/

/-- A consumer is shown the packet of a slot if the slot was published with the type of that
packet. -/
theorem PacketView.body?_eq_some_iff {v : PacketView} {p : Body} :
    v.body? = some p ↔ v.header.type? = some p.layout.type ∧ v.slot = .ofBody p := by
  simp only [body?, Option.map_eq_some_iff, Option.bind_eq_some_iff, Layout.ofType?_eq_some_iff]
  constructor
  · rintro ⟨l, ⟨t, published, rfl⟩, rfl⟩
    have layout : (v.slot.body l).layout = l := Body.layout_ofBytes ..
    exact ⟨layout.symm ▸ published, (Slot.ofBody_body l v.slot).symm⟩
  · rintro ⟨published, shown⟩
    exact ⟨p.layout, ⟨_, published, rfl⟩, by rw [shown, Slot.body_ofBody]⟩

end Accelerator
