import Accelerator.Proofs.Runs.Creation
import Mathlib.Data.Nat.Prime.Basic
import Mathlib.Order.Bounds.Basic

/-!
# Granules

A region hands out multiples of its granule. A size is rounded up by adding one less than the
granule and then taking off what is left over by a division. The sum has to be a word, which is more
than the multiple itself needs: some sizes are refused although their least multiple is a word. It
is then always the largest multiple there is, and such sizes exist just when the granule is not a
power of two.

## What is asked of the granule

No region of a valid configuration has a granule of 0, but sizes are rounded for any properties, and
there 0 counts as 1; hence `grain`. That a size falters is said by the sum and by `top`, and not by
what rounding comes to. It can be told without rounding the size, and explains what rounding does.

## Main definitions

* `RegionInfo.grain`: the number whose multiples are handed out.
* `RegionInfo.Rounds`: a size is rounded to its least multiple, or refused as there is none.
* `RegionInfo.Falters`: a size is refused although there is one.

## Main results

* `RegionInfo.isLeast_roundUp`: sizes are rounded to the least multiple of the granule.
* `RegionInfo.rounds_or_falters`: which sizes are rounded as they should be.
-/

namespace Accelerator

namespace RegionInfo

/-- The number whose multiples a region hands out: its granule, where 0 counts as 1. -/
def grain (info : RegionInfo) : Nat :=
  max info.granule.toNat 1

/-- What a size can be rounded up to. -/
def covers (info : RegionInfo) (size : Nat) : Set Nat :=
  {n | info.grain ∣ n ∧ size ≤ n}

/-- The largest multiple of the granule that is a word. -/
def top (info : RegionInfo) : Nat :=
  (2 ^ 64 - 1) / info.grain * info.grain

variable {info : RegionInfo} {size rounded : UInt64} {n : Nat}

theorem grain_pos (info : RegionInfo) : 0 < info.grain :=
  Nat.le_max_right ..

/-- A larger multiple is larger by a granule at least. -/
theorem add_grain_le {a b : Nat} (ha : info.grain ∣ a) (hb : info.grain ∣ b) (below : a < b) :
    a + info.grain ≤ b := by
  have apart := Nat.le_of_dvd (Nat.sub_pos_of_lt below) (Nat.dvd_sub hb ha)
  omega

/-- Sizes are rounded to the least multiple of the granule that they fit into. -/
theorem isLeast_roundUp (info : RegionInfo) (size : Nat) :
    IsLeast (info.covers size) (info.roundUp size) := by
  have divides : info.grain ∣ info.roundUp size := Nat.dvd_mul_left ..
  refine ⟨⟨divides, info.le_roundUp size⟩, fun n covering => ?_⟩
  -- otherwise the size would not reach past the multiple before the rounded size
  by_contra less
  have next := add_grain_le covering.1 divides (Nat.not_le.mp less)
  have reach : info.roundUp size ≤ size + (info.grain - 1) := Nat.div_mul_le_self ..
  have := info.grain_pos
  have := covering.2
  omega

theorem dvd_top (info : RegionInfo) : info.grain ∣ info.top :=
  Nat.dvd_mul_left ..

theorem top_lt (info : RegionInfo) : info.top < 2 ^ 64 :=
  (Nat.div_mul_le_self ..).trans_lt (by decide)

theorem le_top (multiple : info.grain ∣ n) (below : n < 2 ^ 64) : n ≤ info.top := by
  obtain ⟨k, rfl⟩ := multiple
  rw [Nat.mul_comm] at below ⊢
  have times : k ≤ (2 ^ 64 - 1) / info.grain :=
    (Nat.le_div_iff_mul_le info.grain_pos).mpr (Nat.le_sub_one_of_lt below)
  exact Nat.mul_le_mul_right _ times

/-- There is no word left for a multiple after the largest one. -/
theorem le_top_add_grain (info : RegionInfo) : 2 ^ 64 ≤ info.top + info.grain := by
  by_contra less
  have larger := le_top (Nat.dvd_add info.dvd_top dvd_rfl) (Nat.not_le.mp less)
  have := info.grain_pos
  omega

/-- A size is rounded to the least multiple of the granule that it fits into, if that is a word, and
to nothing if it is not. -/
def Rounds (info : RegionInfo) (size : UInt64) : Prop :=
  ∀ rounded : UInt64,
    info.roundedSize size = some rounded ↔ IsLeast (info.covers size.toNat) rounded.toNat

/-- The sum on the way to a size's multiple is not a word, but the multiple is. -/
structure Falters (info : RegionInfo) (size : UInt64) : Prop where
  sum : 2 ^ 64 < size.toNat + info.grain
  multiple : size.toNat ≤ info.top

theorem roundedSize_eq_none : info.roundedSize size = none ↔ 2 ^ 64 < size.toNat + info.grain := by
  have := info.grain_pos
  rw [roundedSize_eq]
  change (if size.toNat + (info.grain - 1) < 2 ^ 64 then _ else none) = none ↔ _
  split
  case isTrue fits => exact iff_of_false (by simp) (by omega)
  case isFalse large => exact iff_of_true rfl (by omega)

theorem isLeast_roundedSize (fits : info.roundedSize size = some rounded) :
    IsLeast (info.covers size.toNat) rounded.toNat := by
  rw [toNat_roundedSize fits]
  exact info.isLeast_roundUp size.toNat

theorem rounds_of_not_falters (safe : ¬ info.Falters size) : info.Rounds size := by
  refine fun rounded => ⟨isLeast_roundedSize, fun least => ?_⟩
  cases answer : info.roundedSize size with
  | some found =>
    rw [UInt64.toNat_inj.mp ((isLeast_roundedSize answer).unique least)]
  | none =>
    have multiple := least.1.2.trans (le_top least.1.1 rounded.toNat_lt)
    exact absurd ⟨roundedSize_eq_none.mp answer, multiple⟩ safe

/-- A size that is refused for its sum would have been rounded to the largest multiple. -/
theorem Falters.isLeast_top (falters : info.Falters size) :
    IsLeast (info.covers size.toNat) info.top := by
  refine ⟨⟨info.dvd_top, falters.multiple⟩, fun n covering => ?_⟩
  by_contra less
  have next := add_grain_le covering.1 info.dvd_top (Nat.not_le.mp less)
  have := falters.sum
  have := covering.2
  have := info.top_lt
  omega

theorem Falters.not_rounds (falters : info.Falters size) : ¬ info.Rounds size := by
  intro rounds
  have word : (UInt64.ofNat info.top).toNat = info.top := UInt64.toNat_ofNat_of_lt' info.top_lt
  have found := (rounds (.ofNat info.top)).mpr (by rw [word]; exact falters.isLeast_top)
  rw [roundedSize_eq_none.mpr falters.sum] at found
  cases found

theorem rounds_iff : info.Rounds size ↔ ¬ info.Falters size :=
  ⟨fun rounds falters => falters.not_rounds rounds, rounds_of_not_falters⟩

theorem grain_lt (info : RegionInfo) : info.grain < 2 ^ 64 :=
  Nat.max_lt.mpr ⟨info.granule.toNat_lt, by decide⟩

/-- A granule divides 2 ^ 64 just when it is a power of two. -/
theorem grain_dvd_iff (info : RegionInfo) : info.grain ∣ 2 ^ 64 ↔ info.grain.isPowerOfTwo := by
  constructor
  · intro divides
    obtain ⟨k, -, same⟩ := (Nat.dvd_prime_pow Nat.prime_two).mp divides
    exact ⟨k, same⟩
  · rintro ⟨k, same⟩
    have below : 2 ^ k < 2 ^ 64 := same ▸ info.grain_lt
    rw [same]
    exact Nat.pow_dvd_pow 2 ((Nat.pow_lt_pow_iff_right (by decide)).mp below).le

/-- No size is refused for its sum just when the granule is a power of two. -/
theorem forall_not_falters : (∀ size, ¬ info.Falters size) ↔ info.grain.isPowerOfTwo := by
  rw [← info.grain_dvd_iff]
  constructor
  · intro safe
    have word : (UInt64.ofNat info.top).toNat = info.top := UInt64.toNat_ofNat_of_lt' info.top_lt
    have sum : ¬ 2 ^ 64 < info.top + info.grain := fun sum =>
      safe (.ofNat info.top) ⟨by rwa [word], word.le⟩
    rw [← Nat.le_antisymm (Nat.not_lt.mp sum) info.le_top_add_grain]
    exact Nat.dvd_add info.dvd_top dvd_rfl
  · intro divides size falters
    have next := add_grain_le info.dvd_top divides info.top_lt
    have := falters.sum
    have := falters.multiple
    omega

/-- A size is rounded up to the least multiple of the granule, or there is no such word, unless the
sum on the way there is too large. In that case nothing comes of it although the multiple, which is
the largest there is, is a word. If the granule is a power of two this happens to no size, and else
it happens to some. -/
theorem rounds_or_falters (info : RegionInfo) :
    (∀ size, ¬ info.Falters size → info.Rounds size) ∧
    (∀ size, info.Falters size → info.roundedSize size = none ∧
      IsLeast (info.covers size.toNat) info.top ∧ info.top < 2 ^ 64) ∧
    ((∀ size, info.Rounds size) ↔ info.grain.isPowerOfTwo) := by
  refine ⟨fun size => rounds_of_not_falters, fun size falters => ?_, ?_⟩
  · exact ⟨roundedSize_eq_none.mpr falters.sum, falters.isLeast_top, info.top_lt⟩
  · simp only [rounds_iff, forall_not_falters]

/-- A region that hands out multiples of three bytes. -/
def inThrees : RegionInfo where
  name := "threes"
  segment := .globalMemory
  flags := .fineGrained
  allocAllowed := true
  maxAllocation := 4096
  granule := 3
  alignment := 1
  capacity := 4096

/-- Multiples of three bytes: a size that is rounded, and one that is not. -/
theorem rounds_or_falters_threes : inThrees.Rounds 4 ∧
    inThrees.roundedSize 0xffffffffffffffff = none ∧ ¬ ∀ size, inThrees.Rounds size := by
  obtain ⟨rounds, falters, always⟩ := rounds_or_falters inThrees
  have small : ¬ inThrees.Falters 4 := fun falters => absurd falters.sum (by decide)
  refine ⟨rounds 4 small, (falters _ ⟨by decide, by decide⟩).1, fun all => ?_⟩
  exact absurd (always.mp all) (by decide)

/-- A configuration may have a region that does not round the largest word, although that word is a
multiple of the region's granule. -/
theorem refuses_largest_multiple : inThrees.IsValid ∧
    inThrees.roundedSize 0xffffffffffffffff = none ∧
    IsLeast (inThrees.covers (2 ^ 64 - 1)) (2 ^ 64 - 1) ∧ ¬ inThrees.Rounds 0xffffffffffffffff := by
  have falters : inThrees.Falters 0xffffffffffffffff := ⟨by decide, by decide⟩
  exact ⟨⟨⟨0, rfl⟩, by decide⟩, by decide, falters.isLeast_top, falters.not_rounds⟩

end RegionInfo

end Accelerator
