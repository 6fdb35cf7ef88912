import Accelerator.Kernarg
import Accelerator.Proofs.Words
import Mathlib.Order.Bounds.Basic

/-!
# Segments of kernel arguments

A builder puts each value at the least multiple of its natural alignment that is not before the end
of its predecessor, with zeros between; a reader that is asked for the same types in the same order
finds them there. Both compute where a value lies from their own position only: the builder from
the bytes it has, the reader from the bytes it has read. What makes the two agree is that the place
of a value is determined by the end of its predecessor, as the least element of a set.

Of a segment that was cut off, a reader gets exactly the values that end before the cut, and then
is told of the first one that does not, without moving on.

## Main definitions

* `Kernarg.Place`, `Kernarg.Placed`: a value at its offset, and values behind each other.
* `Kernarg.Holds`: a segment with values in their places.
* `Kernarg.Reader.readAll`: reads values of given types in order, up to the first that does not fit.

## Main results

* `Kernarg.Value.ofBytes_bytes`, `Kernarg.Kind.bytes_ofBytes`: values and their bytes.
* `Kernarg.Builder.exists_holds`: what a builder makes.
* `Kernarg.Placed.readAll_take`: what a reader gets of values in their places.
* `Kernarg.Builder.readAll_foldl_push`: reading inverts packing, at every cut.
-/

namespace Accelerator

namespace Kernarg

/-! ### Values and their bytes -/

@[simp] theorem Kind.kind_ofBytes (k : Kind) (bs : List UInt8) : (k.ofBytes bs).kind = k := by
  cases k <;> rfl

/-- A value is what its bytes spell. -/
theorem Value.ofBytes_bytes (v : Value) : v.kind.ofBytes v.bytes = v := by
  cases v <;> simp [kind, bytes, Kind.ofBytes, Word.ofBytes_bytes, List.drop_append,
    List.drop_eq_nil_of_le]

/-- Bytes are those of the value that they spell. -/
theorem Kind.bytes_ofBytes (k : Kind) {bs : List UInt8} (sized : bs.length = k.size) :
    (k.ofBytes bs).bytes = bs := by
  cases k with
  | u32x3 =>
    have words : bs.take 4 ++ (bs.drop 4).take 4 ++ bs.drop 8 = bs := by
      rw [List.append_assoc, ← List.drop_drop (i := 4) (j := 4), List.take_append_drop,
        List.take_append_drop]
    have first : (bs.take 4).length = 4 := by simp [sized, size]
    have second : ((bs.drop 4).take 4).length = 4 := by simp [sized, size]
    have third : (bs.drop 8).length = 4 := by simp [sized, size]
    simp only [ofBytes, Value.bytes, UInt32.toNat_ofNat']
    exact (congrArg₂ (· ++ ·)
      (congrArg₂ (· ++ ·) (Word.bytes_ofBytes_mod first) (Word.bytes_ofBytes_mod second))
      (Word.bytes_ofBytes_mod third)).trans words
  | _ => simpa [ofBytes, Value.bytes, size] using Word.bytes_ofBytes_mod sized

/-- Bytes of the size of a type spell a value exactly if they are the bytes of that value. -/
theorem Kind.ofBytes_eq_iff {k : Kind} {bs : List UInt8} (sized : bs.length = k.size) {v : Value} :
    k.ofBytes bs = v ↔ v.kind = k ∧ bs = v.bytes := by
  constructor
  · rintro rfl
    exact ⟨k.kind_ofBytes bs, (k.bytes_ofBytes sized).symm⟩
  · rintro ⟨rfl, rfl⟩
    exact v.ofBytes_bytes

theorem Kind.alignment_pos (k : Kind) : 0 < k.alignment := by
  cases k <;> decide

/-! ### Values in their places -/

/-- A value at an offset of a segment. -/
structure Place where
  offset : Nat
  value : Value
  deriving DecidableEq, Repr

namespace Place

/-- The offset behind the last byte of the value. -/
def limit (p : Place) : Nat :=
  p.offset + p.value.kind.size

/-- The value does not fit the first `length` bytes of its segment. -/
def truncated (length : Nat) (p : Place) : Truncated :=
  ⟨p.offset, p.value.kind.size, length⟩

/-- Where the last of some values ends; `start` if there are none. -/
def lastLimit (start : Nat) (places : List Place) : Nat :=
  (places.getLast?.map limit).getD start

@[simp] theorem lastLimit_cons (start : Nat) (p : Place) (rest : List Place) :
    lastLimit start (p :: rest) = lastLimit p.limit rest := by
  rw [lastLimit, List.getLast?_cons, Option.map_some, Option.getD_some, lastLimit,
    Option.getD_map limit p]

end Place

/-- Values lie behind each other from `start` to `stop`, each at the least multiple of its natural
alignment that is not before the end of its predecessor. -/
inductive Placed : Nat → List Place → Nat → Prop where
  | nil (start : Nat) : Placed start [] start
  | cons {start stop : Nat} {p : Place} {rest : List Place}
      (least : IsLeast {n | start ≤ n ∧ p.value.kind.alignment ∣ n} p.offset)
      (behind : Placed p.limit rest stop) : Placed start (p :: rest) stop

/-- Behind its first `start` bytes, a segment holds values in their places and zeros between. -/
structure Holds (segment : List UInt8) (start : Nat) (places : List Place) : Prop where
  placed : Placed start places segment.length
  value : ∀ p ∈ places, (segment.drop p.offset).take p.value.kind.size = p.value.bytes
  padding : ∀ i b, start ≤ i → segment[i]? = some b →
    (∀ p ∈ places, ¬ (p.offset ≤ i ∧ i < p.limit)) → b = 0

namespace Placed

variable {start stop : Nat} {places : List Place}

theorem le (placed : Placed start places stop) : start ≤ stop := by
  induction placed with
  | nil => exact le_rfl
  | @cons start stop p rest least _ ih =>
    have := least.1.1
    rw [Place.limit] at ih
    omega

theorem bounds (placed : Placed start places stop) :
    ∀ p ∈ places, start ≤ p.offset ∧ p.limit ≤ stop := by
  induction placed with
  | nil => simp
  | @cons start stop p rest least behind ih =>
    have above := least.1.1
    intro q member
    rcases List.mem_cons.mp member with rfl | later
    · exact ⟨above, behind.le⟩
    · have := ih q later
      rw [Place.limit] at this
      omega

/-- The last value ends where the values end. -/
theorem lastLimit_eq (placed : Placed start places stop) :
    Place.lastLimit start places = stop := by
  induction placed with
  | nil => rfl
  | cons _ _ ih => rw [Place.lastLimit_cons, ih]

end Placed

/-! ### What a builder makes -/

namespace Builder

/-- A value is pushed with as many zeros in front as its alignment needs. -/
theorem bytes_push (b : Builder) (v : Value) : ∃ offset,
    IsLeast {n | b.bytes.length ≤ n ∧ v.kind.alignment ∣ n} offset ∧
      (b.push v).bytes =
        b.bytes ++ List.replicate (offset - b.bytes.length) 0 ++ v.bytes :=
  ⟨_, Word.isLeast_alignUp v.kind.alignment_pos _, rfl⟩

/-- The values that are pushed get their places behind what was there, which stays. -/
theorem exists_holds (values : List Value) (b : Builder) : ∃ places : List Place,
    places.map Place.value = values ∧ b.bytes <+: (values.foldl push b).bytes ∧
      Holds (values.foldl push b).bytes b.bytes.length places := by
  induction values generalizing b with
  | nil =>
    refine ⟨[], rfl, List.prefix_rfl, .nil _, by simp, fun i byte outside found => ?_⟩
    have nothing : b.bytes[i]? = none := List.getElem?_eq_none outside
    cases nothing.symm.trans found
  | cons v values ih =>
    obtain ⟨offset, least, pushed⟩ := b.bytes_push v
    obtain ⟨places, same, ⟨tail, made⟩, holds⟩ := ih (b.push v)
    have above : b.bytes.length ≤ offset := least.1.1
    have front : (b.bytes ++ List.replicate (offset - b.bytes.length) 0).length = offset := by
      simp only [List.length_append, List.length_replicate]
      omega
    have limit : (b.push v).bytes.length = offset + v.kind.size := by
      rw [pushed, List.length_append, front, v.length_bytes]
    rw [limit] at holds
    rw [pushed] at made
    refine ⟨⟨offset, v⟩ :: places, by rw [List.map_cons, same], ?_,
      .cons least holds.placed, ?_, ?_⟩
    · rw [List.foldl_cons, ← made, List.append_assoc, List.append_assoc]
      exact List.prefix_append ..
    · intro p member
      rcases List.mem_cons.mp member with rfl | later
      · rw [List.foldl_cons, ← made, List.append_assoc _ _ tail, List.drop_left' front,
          List.take_left' v.length_bytes]
      · exact holds.value p later
    · intro i byte inside found free
      by_cases before : i < offset
      · -- the byte is one of the zeros in front of the value
        rw [List.foldl_cons, ← made, List.append_assoc, List.append_assoc,
          List.getElem?_append_right inside, List.getElem?_append_left (by simp; omega),
          List.getElem?_replicate_of_lt (by omega)] at found
        exact (Option.some.inj found).symm
      · have behind : ¬ i < offset + v.kind.size := fun within =>
          free _ (.head _) ⟨not_lt.mp before, within⟩
        exact holds.padding i byte (not_lt.mp behind) found fun p later => free p (.tail _ later)

/-- The alignment is the greatest of those pushed and the one before. -/
theorem isGreatest_alignment (values : List Value) (b : Builder) :
    IsGreatest (insert b.alignment {a | ∃ v ∈ values, v.kind.alignment = a})
      (values.foldl push b).alignment := by
  induction values generalizing b with
  | nil => simp
  | cons v values ih =>
    obtain ⟨attained, above⟩ := ih (b.push v)
    have first : (b.push v).alignment = max b.alignment v.kind.alignment := rfl
    have bound : max b.alignment v.kind.alignment ≤ (values.foldl push (b.push v)).alignment :=
      above (.inl first.symm)
    rw [List.foldl_cons]
    constructor
    · rcases attained with same | ⟨w, member, same⟩
      · rw [same, first]
        rcases max_choice b.alignment v.kind.alignment with left | right
        · exact .inl left
        · exact .inr ⟨v, .head _, right.symm⟩
      · exact .inr ⟨w, .tail _ member, same⟩
    · rintro a (rfl | ⟨w, member, rfl⟩)
      · exact (le_max_left ..).trans bound
      · rcases List.mem_cons.mp member with rfl | later
        · exact (le_max_right ..).trans bound
        · exact above (.inr ⟨w, later, rfl⟩)

end Builder

/-! ### What a reader gets -/

namespace Reader

/-- A reader looks for the next value in its place. -/
theorem read_eq {segment : List UInt8} {start offset : Nat} {t : Kind}
    (least : IsLeast {n | start ≤ n ∧ t.alignment ∣ n} offset) :
    read ⟨segment, start⟩ t =
      if offset + t.size > segment.length then
        (.error ⟨offset, t.size, segment.length⟩, ⟨segment, start⟩)
      else
        (.ok (t.ofBytes ((segment.drop offset).take t.size)), ⟨segment, offset + t.size⟩) := by
  have here := (Word.isLeast_alignUp t.alignment_pos start).unique least
  simp only [read, here]

/-- A reader that is asked for some types and then for more is asked for all of them, unless a value
does not fit before. -/
theorem readAll_append (r : Reader) (kinds more : List Kind) :
    r.readAll (kinds ++ more) = match r.readAll kinds with
      | (values, some stop, r) => (values, some stop, r)
      | (values, none, r) =>
        let (others, stop, r) := r.readAll more
        (values ++ others, stop, r) := by
  induction kinds generalizing r with
  | nil => rfl
  | cons t rest ih =>
    rw [List.cons_append, readAll, readAll]
    rcases r.read t with ⟨_ | v, r⟩
    · rfl
    · dsimp only
      rw [ih]
      rcases r.readAll rest with ⟨values, _ | stop, r⟩ <;> rfl

theorem length_readAll {r r' : Reader} {kinds : List Kind} {values : List Value}
    (done : r.readAll kinds = (values, none, r')) : values.length = kinds.length := by
  induction kinds generalizing r values with
  | nil =>
    cases done
    rfl
  | cons t rest ih =>
    rw [readAll] at done
    rcases next : r.read t with ⟨_ | v, behind⟩
    · rw [next] at done
      cases done
    · rcases later : behind.readAll rest with ⟨others, stop, last⟩
      simp only [next, later, Prod.mk.injEq] at done
      obtain ⟨rfl, rfl, rfl⟩ := done
      rw [List.length_cons, List.length_cons, ih later]

/-- Values that are read at once can be read in parts. -/
theorem readAll_parts {r r' : Reader} {first second : List Value}
    (whole : r.readAll ((first ++ second).map Value.kind) = (first ++ second, none, r')) :
    ∃ between : Reader, r.readAll (first.map Value.kind) = (first, none, between) ∧
      between.readAll (second.map Value.kind) = (second, none, r') := by
  rw [List.map_append, readAll_append] at whole
  rcases front : r.readAll (first.map Value.kind) with ⟨values, _ | stop, between⟩
  · rcases back : between.readAll (second.map Value.kind) with ⟨others, stop, last⟩
    simp only [front, back, Prod.mk.injEq] at whole
    obtain ⟨same, rfl, rfl⟩ := whole
    have sized : values.length = first.length := by simpa using length_readAll front
    obtain ⟨rfl, rfl⟩ := List.append_inj same sized
    exact ⟨between, rfl, back⟩
  · rw [front] at whole
    cases whole

end Reader

/-- Of the first `length` bytes of a segment with values in their places, a reader gets the values
that end there, and is told of the first one that does not. -/
theorem Placed.readAll_take {segment : List UInt8} {start stop : Nat} {places : List Place}
    (placed : Placed start places stop) (fits : stop ≤ segment.length)
    (value : ∀ p ∈ places, (segment.drop p.offset).take p.value.kind.size = p.value.bytes)
    (length : Nat) :
    Reader.readAll ⟨segment.take length, start⟩ (places.map (·.value.kind)) =
      ((places.filter (·.limit ≤ length)).map Place.value,
        (places.find? (length < ·.limit)).map (Place.truncated length),
        ⟨segment.take length, Place.lastLimit start (places.filter (·.limit ≤ length))⟩) := by
  induction placed with
  | nil => rfl
  | @cons start stop p rest least behind ih =>
    have inside := behind.le.trans fits
    rw [List.map_cons, Reader.readAll, Reader.read_eq least, List.length_take]
    by_cases ends : p.limit ≤ length
    · have whole : ((segment.take length).drop p.offset).take p.value.kind.size =
          p.value.bytes := by
        rw [← value p (.head _), List.drop_take, List.take_take, min_eq_left]
        rw [Place.limit] at ends
        omega
      have room : ¬ p.offset + p.value.kind.size > min length segment.length :=
        not_lt.mpr (le_min ends inside)
      have later := ih fits fun q member => value q (.tail _ member)
      rw [Place.limit] at later
      rw [if_neg room, whole, Value.ofBytes_bytes, List.filter_cons_of_pos (by simpa using ends),
        List.find?_cons_of_neg (by simpa using ends), Place.lastLimit_cons, List.map_cons]
      simp only [later, Place.limit]
    · -- all later values end later still
      have none : rest.filter (·.limit ≤ length) = [] := by
        rw [List.filter_eq_nil_iff]
        intro q member
        have apart : p.limit ≤ q.offset := (behind.bounds q member).1
        have later : q.offset ≤ q.limit := Nat.le_add_right ..
        simp only [decide_eq_true_eq]
        omega
      have short : min length segment.length = length := by omega
      have full : p.offset + p.value.kind.size > length := not_le.mp ends
      rw [short, if_pos full, List.filter_cons_of_neg (by simpa using ends), none,
        List.find?_cons_of_pos (by simpa using ends)]
      rfl

/-- A reader gets all values of a segment, and stands at the end then. -/
theorem Holds.readAll {segment : List UInt8} {places : List Place}
    (holds : Holds segment 0 places) :
    (Reader.ofSegment segment).readAll (places.map (·.value.kind)) =
      (places.map Place.value, none, ⟨segment, segment.length⟩) := by
  have all : ∀ p ∈ places, p.limit ≤ segment.length := fun p member =>
    (holds.placed.bounds p member).2
  have every : places.filter (·.limit ≤ segment.length) = places :=
    List.filter_eq_self.mpr fun p member => decide_eq_true (all p member)
  have nothing : places.find? (segment.length < ·.limit) = none :=
    List.find?_eq_none.mpr fun p member => by simpa using all p member
  have whole := holds.placed.readAll_take le_rfl holds.value segment.length
  rwa [every, nothing, List.take_length, holds.placed.lastLimit_eq] at whole

namespace Builder

/-- A reader gets the values that were packed. -/
theorem readAll_pack (values : List Value) :
    (Reader.ofSegment (pack values)).readAll (values.map Value.kind) =
      (values, none, ⟨pack values, (pack values).length⟩) := by
  obtain ⟨places, rfl, -, holds⟩ := exists_holds values empty
  rw [List.map_map]
  exact holds.readAll

/-- Reading inverts packing, on the whole segment and on all of its beginnings. The values that are
pushed on an empty segment lie in their places with zeros between them, the segment ends with the
last one, and its alignment is the greatest of theirs, or 1. The first `length` bytes give a reader
of the same types the values that end there; of the first one that does not, the reader is told its
place and size, and it stays behind the value before. -/
theorem readAll_foldl_push (values : List Value) :
    let b := values.foldl push empty
    IsGreatest (insert 1 {a | ∃ v ∈ values, v.kind.alignment = a}) b.alignment ∧
    ∃ places : List Place, places.map Place.value = values ∧ Holds b.bytes 0 places ∧
      (∀ length, (Reader.ofSegment (b.bytes.take length)).readAll (values.map Value.kind) =
        ((places.filter (·.limit ≤ length)).map Place.value,
          (places.find? (length < ·.limit)).map (Place.truncated length),
          ⟨b.bytes.take length, Place.lastLimit 0 (places.filter (·.limit ≤ length))⟩)) ∧
      (Reader.ofSegment b.bytes).readAll (values.map Value.kind) =
        (values, none, ⟨b.bytes, b.bytes.length⟩) := by
  intro b
  obtain ⟨places, same, -, holds⟩ := exists_holds values empty
  have types : values.map Value.kind = places.map (·.value.kind) := by
    rw [← same, List.map_map]
    rfl
  have cut := holds.placed.readAll_take le_rfl holds.value
  refine ⟨isGreatest_alignment values empty, places, same, holds, ?_, ?_⟩
  · intro length
    rw [types]
    exact cut length
  · exact readAll_pack values

end Builder

end Kernarg

end Accelerator
