import Accelerator.Packet.Header
import Mathlib.Data.List.Induction
import Mathlib.Data.Nat.Bitwise

/-!
# Replacing fields of a header

The barrier flag and the two fence scopes lie side by side in a header, with the packet type below
them and three unused bits above. Each of them can be replaced on its own. A mask that is one bit
too wide, or a code that is wider than its field, would reach into a neighbour, and would show only
for some values of it; so what is said of a replacement here is said of all 16 bits.

From there on it is a matter of order. Fields may be replaced in any order and as often as one
likes; in the end each of them is what it was replaced by last. A field that is not replaced keeps
its bits, also when they are the reserved ones of a fence scope.

## Why single bits

`Header.testBit_setField` gives each bit of the word, in one statement for all fields. That a field
reads as what it was replaced by, that the others stay, and that equal fields make equal headers
follow from it. So a mistake in a mask has one place where it would show.

## Main definitions

* `Header.Part`, `Header.raw`: the fields of a header, and their bits.
* `Header.Update`, `Header.updates`: a replacement, and several of them one after the other.
* `Header.lastBarrier`, `Header.lastAcquire`, `Header.lastRelease`: the last replacement of a field.
* `Header.Agree`: the last replacements are the same, field by field.

## Main results

* `Header.testBit_setField`: the bits of a word with a field replaced.
* `Header.raw_apply`: a replacement shows in its field, and in no other.
* `Header.eq_of_raw`: the fields make the header.
* `Header.raw_updates`: the fields after several replacements.
* `Header.lastUpdate_wins`: what several replacements come to.
-/

namespace Accelerator

namespace Header

/-! ### Bits -/

/-- A field of some bits from a bit on lies inside a word, and is not all of it. -/
structure Inside (shift width : UInt16) : Prop where
  start : shift.toNat < 16
  narrow : width.toNat < 16
  limit : shift.toNat + width.toNat ≤ 16

instance (shift width : UInt16) : Decidable (Inside shift width) :=
  decidable_of_iff (shift.toNat < 16 ∧ width.toNat < 16 ∧ shift.toNat + width.toNat ≤ 16)
    ⟨fun h => ⟨h.1, h.2.1, h.2.2⟩, fun h => ⟨h.start, h.narrow, h.limit⟩⟩

section Bits

variable {bits shift width shift' width' value : UInt16}

theorem toNat_mask (narrow : width.toNat < 16) : (mask width).toNat = 2 ^ width.toNat - 1 := by
  have small : 2 ^ width.toNat < 2 ^ 16 := Nat.pow_lt_pow_right (by decide) narrow
  have power : ((1 : UInt16) <<< width).toNat = 2 ^ width.toNat := by
    rw [UInt16.toNat_shiftLeft, Nat.mod_eq_of_lt narrow, Nat.shiftLeft_eq]
    change 1 * 2 ^ width.toNat % 2 ^ 16 = _
    rw [Nat.one_mul, Nat.mod_eq_of_lt small]
  have positive : (1 : UInt16) ≤ 1 <<< width := by
    rw [UInt16.le_iff_toNat_le, power]
    exact Nat.one_le_two_pow
  rw [mask, UInt16.toNat_sub_of_le _ _ positive, power]
  rfl

theorem toNat_field (inside : Inside shift width) :
    (field bits shift width).toNat = bits.toNat / 2 ^ shift.toNat % 2 ^ width.toNat := by
  rw [field, UInt16.toNat_and, toNat_mask inside.narrow, UInt16.toNat_shiftRight,
    Nat.mod_eq_of_lt inside.start, Nat.and_two_pow_sub_one_eq_mod, Nat.shiftRight_eq_div_pow]

theorem testBit_field (inside : Inside shift width) (i : Nat) :
    (field bits shift width).toNat.testBit i =
      (decide (i < width.toNat) && bits.toNat.testBit (shift.toNat + i)) := by
  rw [toNat_field inside, Nat.testBit_mod_two_pow, Nat.testBit_div_two_pow, Nat.add_comm]

/-- The bits of a field that is to be cleared. -/
theorem testBit_not_mask (inside : Inside shift width) (i : Nat) :
    (~~~(mask width <<< shift)).toNat.testBit i = (decide (i < 16) &&
      !(decide (shift.toNat ≤ i) && decide (i - shift.toNat < width.toNat))) := by
  have small := (mask width <<< shift).toNat_lt
  have shifted : (mask width <<< shift).toNat = (2 ^ width.toNat - 1) <<< shift.toNat % 2 ^ 16 := by
    rw [UInt16.toNat_shiftLeft, toNat_mask inside.narrow, Nat.mod_eq_of_lt inside.start]
  have flipped : (~~~(mask width <<< shift)).toNat =
      2 ^ 16 - ((mask width <<< shift).toNat + 1) := by
    rw [UInt16.toNat_not, Nat.add_comm, Nat.sub_add_eq]
    rfl
  rw [flipped, Nat.testBit_two_pow_sub_succ small, shifted, Nat.testBit_mod_two_pow,
    Nat.testBit_shiftLeft, Nat.testBit_two_pow_sub_one]
  by_cases below : i < 16 <;> simp [below]

/-- The bits of a word with a field replaced: in the field those of the value, elsewhere its own. -/
theorem testBit_setField (inside : Inside shift width) (fits : value.toNat < 2 ^ width.toNat)
    (i : Nat) : (setField bits shift width value).toNat.testBit i =
      if shift.toNat ≤ i ∧ i < shift.toNat + width.toNat then value.toNat.testBit (i - shift.toNat)
      else bits.toNat.testBit i := by
  have limit := inside.limit
  have shifted : (value <<< shift).toNat.testBit i =
      (decide (shift.toNat ≤ i) && value.toNat.testBit (i - shift.toNat)) := by
    have room : value.toNat <<< shift.toNat < 2 ^ 16 := by
      rw [Nat.shiftLeft_eq]
      calc value.toNat * 2 ^ shift.toNat
        _ < 2 ^ width.toNat * 2 ^ shift.toNat :=
          Nat.mul_lt_mul_of_pos_right fits (Nat.two_pow_pos _)
        _ = 2 ^ (width.toNat + shift.toNat) := (Nat.pow_add ..).symm
        _ ≤ 2 ^ 16 := Nat.pow_le_pow_right (by decide) (by omega)
    rw [UInt16.toNat_shiftLeft, Nat.mod_eq_of_lt inside.start, Nat.mod_eq_of_lt room,
      Nat.testBit_shiftLeft]
  rw [setField, UInt16.toNat_or, UInt16.toNat_and, Nat.testBit_or, Nat.testBit_and,
    testBit_not_mask inside, shifted]
  split
  case isTrue within =>
    have offset : i - shift.toNat < width.toNat := by omega
    simp [within.1, offset]
  case isFalse without =>
    -- neither the value nor the word itself has bits that far out
    have none : shift.toNat ≤ i → value.toNat.testBit (i - shift.toNat) = false := fun above =>
      Nat.testBit_lt_two_pow (fits.trans_le (Nat.pow_le_pow_right (by decide) (by omega)))
    have own : 16 ≤ i → bits.toNat.testBit i = false := fun beyond =>
      Nat.testBit_lt_two_pow
        ((show bits.toNat < 2 ^ 16 from bits.toNat_lt).trans_le
          (Nat.pow_le_pow_right (by decide) beyond))
    by_cases above : shift.toNat ≤ i
    · have offset : ¬ i - shift.toNat < width.toNat := by omega
      rw [none above]
      by_cases below : i < 16
      · simp [below, offset]
      · simp [below, own (Nat.not_lt.mp below)]
    · have below : i < 16 := by have := inside.start; omega
      simp [above, below]

/-- A field reads as what it was replaced by. -/
theorem field_setField (inside : Inside shift width) (fits : value.toNat < 2 ^ width.toNat) :
    field (setField bits shift width value) shift width = value := by
  refine UInt16.toNat_inj.mp (Nat.eq_of_testBit_eq fun i => ?_)
  rw [testBit_field inside, testBit_setField inside fits]
  by_cases low : i < width.toNat
  · simp [low]
  · have high : value.toNat.testBit i = false :=
      Nat.testBit_lt_two_pow
        (fits.trans_le (Nat.pow_le_pow_right (by decide) (Nat.not_lt.mp low)))
    simp [low, high]

/-- Other fields read as before. -/
theorem field_setField_of_apart (inside : Inside shift width) (inside' : Inside shift' width')
    (fits : value.toNat < 2 ^ width.toNat)
    (apart : shift.toNat + width.toNat ≤ shift'.toNat ∨ shift'.toNat + width'.toNat ≤ shift.toNat) :
    field (setField bits shift width value) shift' width' = field bits shift' width' := by
  refine UInt16.toNat_inj.mp (Nat.eq_of_testBit_eq fun i => ?_)
  rw [testBit_field inside', testBit_field inside', testBit_setField inside fits]
  by_cases low : i < width'.toNat
  · rw [if_neg (by omega)]
  · simp [low]

end Bits

/-! ### Fields -/

/-- The fields of a header, from the lowest bits to the highest. -/
inductive Part where
  | type
  | barrier
  | acquire
  | release
  | unused
  deriving DecidableEq

namespace Part

/-- The lowest bit of a field. -/
def shift : Part → UInt16
  | type => typeShift
  | barrier => barrierShift
  | acquire => acquireShift
  | release => releaseShift
  | unused => 13

/-- The number of bits of a field. -/
def width : Part → UInt16
  | type => typeWidth
  | barrier => 1
  | acquire | release => fenceWidth
  | unused => 3

theorem inside (p : Part) : Inside p.shift p.width := by
  cases p <;> decide

/-- Fields do not overlap. -/
theorem apart {p p' : Part} : p ≠ p' → p.shift.toNat + p.width.toNat ≤ p'.shift.toNat ∨
    p'.shift.toNat + p'.width.toNat ≤ p.shift.toNat := by
  cases p <;> cases p' <;> decide

end Part

/-- The bits of a field. -/
def raw (h : Header) (p : Part) : UInt16 :=
  field h.bits p.shift p.width

theorem barrier_eq (h : Header) : h.barrier = (h.raw .barrier == 1) := rfl

theorem acquire_eq (h : Header) : h.acquire = .ofCode (h.raw .acquire) := rfl

theorem release_eq (h : Header) : h.release = .ofCode (h.raw .release) := rfl

theorem typeCode_eq (h : Header) : h.typeCode = (h.raw .type).toUInt8 := rfl

variable {h g : Header} {p : Part}

/-- The fields make the header. -/
theorem eq_of_raw (same : ∀ p, h.raw p = g.raw p) : h = g := by
  have parts : ∀ p : Part, h.bits.toNat / 2 ^ p.shift.toNat % 2 ^ p.width.toNat =
      g.bits.toNat / 2 ^ p.shift.toNat % 2 ^ p.width.toNat := fun p => by
    rw [← toNat_field p.inside, ← toNat_field p.inside]
    exact congrArg UInt16.toNat (same p)
  have type := parts .type
  have barrier := parts .barrier
  have acquire := parts .acquire
  have release := parts .release
  have unused := parts .unused
  have small := h.bits.toNat_lt
  have small' := g.bits.toNat_lt
  refine congrArg Header.mk (UInt16.toNat_inj.mp ?_)
  change _ / 2 ^ 0 % 2 ^ 8 = _ / 2 ^ 0 % 2 ^ 8 at type
  change _ / 2 ^ 8 % 2 ^ 1 = _ / 2 ^ 8 % 2 ^ 1 at barrier
  change _ / 2 ^ 9 % 2 ^ 2 = _ / 2 ^ 9 % 2 ^ 2 at acquire
  change _ / 2 ^ 11 % 2 ^ 2 = _ / 2 ^ 11 % 2 ^ 2 at release
  change _ / 2 ^ 13 % 2 ^ 3 = _ / 2 ^ 13 % 2 ^ 3 at unused
  omega

/-! ### Replacements -/

/-- A replacement of a field. -/
inductive Update where
  | barrier (flag : Bool)
  | acquire (scope : FenceScope)
  | release (scope : FenceScope)

namespace Update

/-- The header with a field replaced. -/
def apply (h : Header) : Update → Header
  | barrier flag => h.withBarrier flag
  | acquire scope => h.withAcquire scope
  | release scope => h.withRelease scope

/-- The field that is replaced. -/
def part : Update → Part
  | barrier _ => .barrier
  | acquire _ => .acquire
  | release _ => .release

/-- The bits that a field is replaced by. -/
def code : Update → UInt16
  | barrier flag => flag.toUInt16
  | acquire scope | release scope => scope.code

/-- The flag, if it is the barrier flag that is replaced. -/
def barrier? : Update → Option Bool
  | barrier flag => some flag
  | _ => none

/-- The scope, if it is that of the acquire fence that is replaced. -/
def acquire? : Update → Option FenceScope
  | acquire scope => some scope
  | _ => none

/-- The scope, if it is that of the release fence that is replaced. -/
def release? : Update → Option FenceScope
  | release scope => some scope
  | _ => none

theorem code_lt (u : Update) : u.code.toNat < 2 ^ u.part.width.toNat := by
  cases u with
  | barrier flag => cases flag <;> decide
  | acquire scope => cases scope <;> decide
  | release scope => cases scope <;> decide

theorem bits_apply (h : Header) (u : Update) :
    (u.apply h).bits = setField h.bits u.part.shift u.part.width u.code := by
  cases u <;> rfl

end Update

/-- A replacement shows in its field, and in no other. -/
theorem raw_apply (h : Header) (u : Update) (p : Part) :
    (u.apply h).raw p = if u.part = p then u.code else h.raw p := by
  rw [raw, u.bits_apply]
  split
  case isTrue here =>
    subst here
    exact field_setField u.part.inside u.code_lt
  case isFalse elsewhere =>
    exact field_setField_of_apart u.part.inside p.inside u.code_lt (Part.apart elsewhere)

/-- A header with several replacements made, one after the other. -/
def updates (h : Header) (us : List Update) : Header :=
  us.foldl Update.apply h

/-- What the barrier flag is replaced by last. -/
def lastBarrier (us : List Update) : Option Bool :=
  (us.filterMap Update.barrier?).getLast?

/-- What the scope of the acquire fence is replaced by last. -/
def lastAcquire (us : List Update) : Option FenceScope :=
  (us.filterMap Update.acquire?).getLast?

/-- What the scope of the release fence is replaced by last. -/
def lastRelease (us : List Update) : Option FenceScope :=
  (us.filterMap Update.release?).getLast?

/-- The bits that a field is replaced by last. -/
def lastCode (us : List Update) : Part → Option UInt16
  | .barrier => (lastBarrier us).map Bool.toUInt16
  | .acquire => (lastAcquire us).map FenceScope.code
  | .release => (lastRelease us).map FenceScope.code
  | .type | .unused => none

/-- Two lists of replacements end alike, field by field. -/
structure Agree (us vs : List Update) : Prop where
  barrier : lastBarrier us = lastBarrier vs
  acquire : lastAcquire us = lastAcquire vs
  release : lastRelease us = lastRelease vs

theorem Agree.lastCode_eq {us vs : List Update} (agree : Agree us vs) (p : Part) :
    lastCode us p = lastCode vs p := by
  cases p with
  | type | unused => rfl
  | barrier => rw [lastCode, lastCode, agree.barrier]
  | acquire => rw [lastCode, lastCode, agree.acquire]
  | release => rw [lastCode, lastCode, agree.release]

theorem lastCode_concat (us : List Update) (u : Update) (p : Part) :
    lastCode (us ++ [u]) p = if u.part = p then some u.code else lastCode us p := by
  cases u <;> cases p <;> simp [lastCode, lastBarrier, lastAcquire, lastRelease, Update.part,
    Update.code, Update.barrier?, Update.acquire?, Update.release?]

/-- A field has the bits that it was replaced by last, or those that it had at first. -/
theorem raw_updates (h : Header) (us : List Update) (p : Part) :
    (h.updates us).raw p = (lastCode us p).getD (h.raw p) := by
  induction us using List.reverseRecOn with
  | nil => cases p <;> rfl
  | append_singleton us u ih =>
    have last : h.updates (us ++ [u]) = u.apply (h.updates us) := by
      rw [updates, List.foldl_append]
      rfl
    rw [last, raw_apply, lastCode_concat, ih]
    split <;> rfl

/-- Bits that were written are read as what was written, and others as what they stand for. -/
theorem decode_getD {α : Type} {decode : UInt16 → α} {code : α → UInt16}
    (inverse : Function.LeftInverse decode code) (last : Option α) (bits : UInt16) :
    decode ((last.map code).getD bits) = last.getD (decode bits) := by
  cases last with
  | none => rfl
  | some a => exact inverse a

/-- Fields are replaced in any order and as often as one likes. Each field is what it was replaced
by last, or what its bits stand for at first if it was not replaced. The packet type and the unused
bits are what they were, so the header still tells the same of its slot. Nothing else matters: if
other replacements end alike, field by field, they lead to the same bits. -/
theorem lastUpdate_wins (h : Header) (us : List Update) :
    (h.updates us).barrier = (lastBarrier us).getD h.barrier ∧
    (h.updates us).acquire = (lastAcquire us).getD h.acquire ∧
    (h.updates us).release = (lastRelease us).getD h.release ∧
    (h.updates us).typeCode = h.typeCode ∧ (h.updates us).raw .unused = h.raw .unused ∧
    (h.updates us).type? = h.type? ∧ (h.updates us).isUnpublished = h.isUnpublished ∧
    ∀ vs, Agree us vs → h.updates us = h.updates vs := by
  have flag : Function.LeftInverse (fun bits : UInt16 => bits == 1) Bool.toUInt16 := fun flag => by
    cases flag <;> rfl
  have scope : Function.LeftInverse FenceScope.ofCode FenceScope.code := FenceScope.ofCode_code
  have type : (h.updates us).typeCode = h.typeCode := by
    rw [typeCode_eq, typeCode_eq, raw_updates]
    rfl
  refine ⟨?_, ?_, ?_, type, h.raw_updates us .unused, ?_, ?_, fun vs agree => eq_of_raw fun p => ?_⟩
  · rw [barrier_eq, raw_updates]
    exact decode_getD flag ..
  · rw [acquire_eq, raw_updates]
    exact decode_getD scope ..
  · rw [release_eq, raw_updates]
    exact decode_getD scope ..
  · rw [type?, type, type?]
  · rw [isUnpublished, type, isUnpublished]
  · rw [raw_updates, raw_updates, agree.lastCode_eq]

/-- All bits are set at first, so both scopes are the reserved one. The acquire fence is never
replaced and keeps it; the other two fields are replaced back and forth. -/
theorem lastUpdate_wins_reserved :
    Agree [.release .none, .barrier false, .release .agent] [.barrier false, .release .agent] ∧
    (Header.mk 0xffff).updates [.release .none, .barrier false, .release .agent] =
      (Header.mk 0xffff).updates [.barrier false, .release .agent] ∧
    ((Header.mk 0xffff).updates [.barrier false, .release .agent]).bits = 0xeeff := by
  have agree : Agree [.release .none, .barrier false, .release .agent]
      [.barrier false, .release .agent] := ⟨rfl, rfl, rfl⟩
  obtain ⟨-, -, -, -, -, -, -, same⟩ := lastUpdate_wins (.mk 0xffff)
    [.release .none, .barrier false, .release .agent]
  exact ⟨agree, same _ agree, by decide⟩

end Header

end Accelerator
