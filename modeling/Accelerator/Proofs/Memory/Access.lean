import Accelerator.Memory.Map
import Accelerator.Proofs.Handles.Directory
import Mathlib.Data.List.TakeWhile
import Mathlib.Data.UInt
import Mathlib.Order.CompletePartialOrder
import Mathlib.Order.Interval.Set.Disjoint

/-!
# What the memory map allows

Whether a range may be accessed is decided without looking at all allocations: the map looks at the
last allocation that starts at or before the range, and walks backwards from its end over the
allocations that share bytes with it. Sums of addresses fail, or stop at the largest word, where
they do not fit 64 bits.

Here ranges are sets of addresses. As long as allocations stand in order and lie apart, the
neighbours that the map looks at stand for all of them: a range may be accessed exactly if it is not
null, ends before the last address, lies in one allocation or in one registered range, and shares
no byte with the ring of a queue.

## Why the neighbours are enough

The walk stops at the first allocation that shares no byte with the range. It may do so because
blocks end in the order in which they start, and they do because they lie apart. Were a block inside
another, the outer one might be behind the place where the walk stops. Likewise the last block that
starts before an address is the only one that may contain it.

Blocks also end before the last address (`Memory.Placed.fits`). A block up to the last address would
have an end that is no word, and the comparisons of ends would fail.

## Main definitions

* `span`: the addresses of a range.
* `Memory.WellFormed`: allocations stand in order and lie apart.
* `Memory.Permits`: the rule for accesses, in terms of addresses.

## Main results

* `Memory.WellFormed.isAccessible_iff`: the rule is what the map decides.
* `Memory.WellFormed.regionOf?_eq_some`: the region of an address.
-/

namespace Accelerator

/-! ### Words -/

namespace Word

theorem add?_eq_some {a b c : UInt64} : add? a b = some c ↔ c.toNat = a.toNat + b.toNat := by
  rw [add?]
  split
  case isTrue fits =>
    have sum : (a + b).toNat = a.toNat + b.toNat := by
      rw [UInt64.toNat_add]
      exact Nat.mod_eq_of_lt fits
    rw [Option.some.injEq, ← UInt64.toNat_inj, sum]
    exact eq_comm
  case isFalse large =>
    have small : c.toNat < UInt64.size := c.toNat_lt
    constructor
    · rintro ⟨⟩
    · intro same
      omega

theorem add?_eq_none {a b : UInt64} : add? a b = none ↔ 2 ^ 64 ≤ a.toNat + b.toNat := by
  change (if a.toNat + b.toNat < 2 ^ 64 then _ else _) = none ↔ _
  split
  case isTrue fits => simpa using fits
  case isFalse large => simpa using large

theorem toNat_addClamped (a b : UInt64) :
    (addClamped a b).toNat = min (a.toNat + b.toNat) (2 ^ 64 - 1) := by
  rw [addClamped]
  cases sum : add? a b with
  | some c =>
    have small := c.toNat_lt
    rw [add?_eq_some] at sum
    rw [Option.getD_some]
    omega
  | none =>
    rw [add?_eq_none] at sum
    change 2 ^ 64 - 1 = _
    omega

end Word

/-! ### Ranges of addresses -/

/-- The addresses of a range. -/
def span (start size : UInt64) : Set Nat :=
  Set.Ico start.toNat (start.toNat + size.toNat)

section Span

variable {start size address len : UInt64} (positive : len ≠ 0)
include positive

theorem toNat_pos_of_ne_zero : 0 < len.toNat := by
  refine Nat.pos_of_ne_zero fun zero => positive ?_
  exact UInt64.toNat_inj.mp zero

theorem span_subset_span : span address len ⊆ span start size ↔
    start.toNat ≤ address.toNat ∧
      address.toNat + len.toNat ≤ start.toNat + size.toNat := by
  have := toNat_pos_of_ne_zero positive
  rw [span, span, Set.Ico_subset_Ico_iff (by omega)]

/-- A range lies within another if all of its addresses do; a range that passes the last address
contains none. -/
theorem rangeWithin_iff : rangeWithin start size address len = true ↔
    start.toNat + size.toNat < 2 ^ 64 ∧ span address len ⊆ span start size := by
  rw [span_subset_span positive, rangeWithin]
  cases limit : Word.add? start size with
  | none =>
    rw [Word.add?_eq_none] at limit
    simp only [Bool.false_eq_true, false_iff]
    omega
  | some last =>
    have small := last.toNat_lt
    rw [Word.add?_eq_some] at limit
    cases access : Word.add? address len with
    | none =>
      rw [Word.add?_eq_none] at access
      simp only [Bool.false_eq_true, false_iff]
      omega
    | some accessLast =>
      rw [Word.add?_eq_some] at access
      simp only [Bool.and_eq_true, decide_eq_true_eq, UInt64.le_iff_toNat_le]
      omega

theorem disjoint_span (occupied : size ≠ 0) : Disjoint (span address len) (span start size) ↔
    address.toNat + len.toNat ≤ start.toNat ∨ start.toNat + size.toNat ≤ address.toNat := by
  have := toNat_pos_of_ne_zero positive
  have := toNat_pos_of_ne_zero occupied
  rw [span, span, Set.Ico_disjoint_Ico]
  omega

end Span

/-! ### Lists in order -/

/-- What is taken from a list up to the first that fails is all that does not fail, if nothing
behind a failure passes. -/
theorem takeWhile_eq_filter {α : Type} {p : α → Bool} {xs : List α}
    (closed : xs.Pairwise fun x y => p y = true → p x = true) : xs.takeWhile p = xs.filter p := by
  induction xs with
  | nil => rfl
  | cons x rest ih =>
    obtain ⟨first, closed⟩ := List.pairwise_cons.mp closed
    rw [List.takeWhile_cons, List.filter_cons]
    cases passes : p x with
    | true => simpa using ih closed
    | false =>
      refine (List.filter_eq_nil_iff.mpr fun y listed passed => ?_).symm
      cases passes.symm.trans (first y listed passed)

/-- In an ordered list every element comes before the last, or is the last. -/
theorem eq_or_before_of_getLast? {α : Type} {before : α → α → Prop} {xs : List α} {x last : α}
    (ordered : xs.Pairwise before) (listed : x ∈ xs) (ends : xs.getLast? = some last) :
    x = last ∨ before x last := by
  obtain ⟨earlier, rfl⟩ := List.getLast?_eq_some_iff.mp ends
  rcases List.mem_append.mp listed with inside | same
  · exact .inr ((List.pairwise_append.mp ordered).2.2 x inside last List.mem_cons_self)
  · exact .inl (List.mem_singleton.mp same)

/-! ### Maps -/

namespace Memory

/-- One block lies behind another. -/
def Before (x y : UInt64 × Allocation) : Prop :=
  x.1.toNat + x.2.size.toNat ≤ y.1.toNat

/-- A block has at least one byte, none of them at address 0, and ends before the last address. -/
structure Placed (entry : UInt64 × Allocation) : Prop where
  notNull : entry.1 ≠ 0
  positive : entry.2.size ≠ 0
  fits : entry.1.toNat + entry.2.size.toNat < 2 ^ 64

/-- Allocations stand in the order of their addresses and lie apart, and what is registered is
registered once at least. -/
structure WellFormed (m : Memory) : Prop where
  placed : ∀ entry ∈ m.allocations, Placed entry
  ordered : m.allocations.Pairwise Before
  counted : ∀ entry ∈ m.registrations, entry.2 ≠ 0

theorem Placed.start_lt {entry : UInt64 × Allocation} (placed : Placed entry) :
    entry.1.toNat < entry.1.toNat + entry.2.size.toNat := by
  have := toNat_pos_of_ne_zero placed.positive
  omega

variable {m n : Memory} {address len : UInt64}

/-! ### Finding allocations -/

section Find

variable (wf : m.WellFormed)
include wf

/-- Later allocations start later. -/
theorem WellFormed.starts_ascend :
    m.allocations.Pairwise fun x y => x.1.toNat < y.1.toNat := by
  refine wf.ordered.imp_of_mem fun hx _ before => ?_
  exact (wf.placed _ hx).start_lt.trans_le before

/-- No two allocations start at one address. -/
theorem WellFormed.nodup_starts : (m.allocations.map (·.1)).Nodup :=
  List.pairwise_map.mpr (wf.starts_ascend.imp fun lt same => lt.ne (congrArg _ same))

theorem WellFormed.start_inj {x y : UInt64 × Allocation} (hx : x ∈ m.allocations)
    (hy : y ∈ m.allocations) (same : x.1 = y.1) : x = y :=
  List.inj_on_of_nodup_map wf.nodup_starts hx hy same

theorem WellFormed.allocationAt?_eq_some {a : Allocation} :
    m.allocationAt? address = some a ↔ (address, a) ∈ m.allocations :=
  ⟨mem_of_lookup, fun listed => lookup_of_mem listed fun _ inside =>
    congrArg Prod.snd (wf.start_inj inside listed rfl)⟩

/-- The allocations that share a byte with a range are found. -/
theorem WellFormed.mem_overlapping (positive : len ≠ 0) {entry : UInt64 × Allocation} :
    entry ∈ m.overlapping address len ↔
      entry ∈ m.allocations ∧ ¬ Disjoint (span address len) (span entry.1 entry.2.size) := by
  have starts : (m.allocations.takeWhile fun entry => entry.1 < Word.addClamped address len) =
      m.allocations.filter fun entry => entry.1 < Word.addClamped address len := by
    refine takeWhile_eq_filter (wf.starts_ascend.imp fun lt below => ?_)
    simp only [decide_eq_true_eq, UInt64.lt_iff_toNat_lt] at below ⊢
    exact lt.trans below
  have ends : ((m.allocations.filter fun entry => entry.1 < Word.addClamped address len).reverse
        |>.takeWhile fun entry => address < Word.addClamped entry.1 entry.2.size) =
      (m.allocations.filter fun entry => entry.1 < Word.addClamped address len).reverse.filter
        fun entry => address < Word.addClamped entry.1 entry.2.size := by
    refine takeWhile_eq_filter (List.pairwise_reverse.mpr ?_)
    refine (List.Pairwise.filter _ wf.ordered).imp_of_mem fun hx hy before above => ?_
    have later := wf.placed _ (List.mem_of_mem_filter hy)
    simp only [decide_eq_true_eq, UInt64.lt_iff_toNat_lt, Word.toNat_addClamped] at above ⊢
    have := later.fits
    rw [Before] at before
    omega
  rw [overlapping, starts, ends]
  simp only [List.mem_filter, List.mem_reverse, decide_eq_true_eq, UInt64.lt_iff_toNat_lt,
    Word.toNat_addClamped, and_assoc]
  refine and_congr_right fun listed => ?_
  -- no sum is held at the largest word, since no allocation reaches it
  have placed := wf.placed entry listed
  have := placed.fits
  have := placed.start_lt
  rw [disjoint_span positive placed.positive]
  omega

/-- The last allocation that starts at or before an address is the one that contains it, if any
does: the next would start behind that one, and so behind the address. -/
theorem WellFormed.preceding?_eq_some {entry : UInt64 × Allocation} (listed : entry ∈ m.allocations)
    (inside : address.toNat ∈ span entry.1 entry.2.size) : m.preceding? address = some entry := by
  obtain ⟨first, last⟩ := inside
  have starts : (m.allocations.takeWhile fun entry => entry.1 ≤ address) =
      m.allocations.filter fun entry => entry.1 ≤ address := by
    refine takeWhile_eq_filter (wf.starts_ascend.imp fun lt below => ?_)
    simp only [decide_eq_true_eq, UInt64.le_iff_toNat_le] at below ⊢
    exact lt.le.trans below
  have kept : entry ∈ m.allocations.filter fun entry => entry.1 ≤ address := by
    refine List.mem_filter.mpr ⟨listed, ?_⟩
    simpa [UInt64.le_iff_toNat_le] using first
  rw [preceding?, starts]
  cases found : (m.allocations.filter fun entry => entry.1 ≤ address).getLast? with
  | none => simp [List.getLast?_eq_none_iff.mp found] at kept
  | some other =>
    have ordered := List.Pairwise.filter (fun entry => decide (entry.1 ≤ address)) wf.ordered
    have same : entry = other := by
      refine (eq_or_before_of_getLast? ordered kept found).resolve_right fun before => ?_
      have below := List.of_mem_filter (List.mem_of_getLast? found)
      simp only [decide_eq_true_eq, UInt64.le_iff_toNat_le] at below
      rw [Before] at before
      omega
    rw [same]

end Find

theorem mem_of_preceding? {entry : UInt64 × Allocation}
    (found : m.preceding? address = some entry) :
    entry ∈ m.allocations :=
  (List.takeWhile_sublist _).subset (List.mem_of_getLast? found)

/-- A range lies in an allocation if it lies in the last that starts at or before it. -/
theorem WellFormed.preceding?_contains (wf : m.WellFormed) (positive : len ≠ 0) :
    (match m.preceding? address with
      | some (start, a) => rangeWithin start a.size address len
      | none => false) = true ↔
      ∃ entry ∈ m.allocations, span address len ⊆ span entry.1 entry.2.size := by
  constructor
  · intro within
    cases found : m.preceding? address with
    | none =>
      rw [found] at within
      cases within
    | some entry =>
      rw [found] at within
      exact ⟨entry, mem_of_preceding? found, ((rangeWithin_iff positive).mp within).2⟩
  · rintro ⟨entry, listed, inside⟩
    have first : address.toNat ∈ span address len :=
      Set.left_mem_Ico.mpr (by have := toNat_pos_of_ne_zero positive; omega)
    rw [wf.preceding?_eq_some listed (inside first)]
    exact (rangeWithin_iff positive).mpr ⟨(wf.placed entry listed).fits, inside⟩

/-! ### Registered ranges -/

/-- What is registered once at least is on the list. -/
theorem WellFormed.registrationCount_ne_zero (wf : m.WellFormed) {start size : UInt64} :
    m.registrationCount start size ≠ 0 ↔ ∃ entry ∈ m.registrations, entry.1 = (start, size) := by
  rw [registrationCount]
  constructor
  · intro counted
    cases found : m.registrations.lookup (start, size) with
    | none => simp [found] at counted
    | some count => exact ⟨_, mem_of_lookup found, rfl⟩
  · rintro ⟨entry, listed, same⟩
    cases found : m.registrations.lookup (start, size) with
    | none => simpa [same] using List.lookup_eq_none_iff.mp found _ listed
    | some count => exact wf.counted _ (mem_of_lookup found)

theorem WellFormed.isRegistered_iff (wf : m.WellFormed) (positive : len ≠ 0) :
    m.isRegistered address len = true ↔ ∃ start size, m.registrationCount start size ≠ 0 ∧
      start.toNat + size.toNat ≤ 2 ^ 64 - 1 ∧ span address len ⊆ span start size := by
  rw [isRegistered, List.any_eq_true]
  constructor
  · rintro ⟨⟨⟨start, size⟩, count⟩, listed, within⟩
    obtain ⟨-, within⟩ := Bool.and_eq_true_iff.mp within
    obtain ⟨fits, inside⟩ := (rangeWithin_iff positive).mp within
    exact ⟨start, size, wf.registrationCount_ne_zero.mpr ⟨_, listed, rfl⟩,
      Nat.le_sub_one_of_lt fits, inside⟩
  · rintro ⟨start, size, counted, fits, inside⟩
    obtain ⟨⟨_, count⟩, listed, rfl⟩ := wf.registrationCount_ne_zero.mp counted
    have first := ((span_subset_span positive).mp inside).1
    refine ⟨_, listed, Bool.and_eq_true_iff.mpr ⟨?_, ?_⟩⟩
    · simpa [UInt64.le_iff_toNat_le] using first
    · exact (rangeWithin_iff positive).mpr ⟨Nat.lt_of_le_sub_one (by decide) fits, inside⟩

/-! ### The rule for accesses -/

/-- What a range must be like to be accessed: it is not null, ends before the last address, has no
byte of a ring, and lies in one allocation or in one registered range that ends before the last
address. -/
structure Permits (m : Memory) (address len : UInt64) : Prop where
  notNull : address ≠ 0
  ends : address.toNat + len.toNat ≤ 2 ^ 64 - 1
  apart : ∀ entry ∈ m.allocations, entry.2.usage = .queueRing →
    Disjoint (span address len) (span entry.1 entry.2.size)
  within : (∃ entry ∈ m.allocations, span address len ⊆ span entry.1 entry.2.size) ∨
    ∃ start size, m.registrationCount start size ≠ 0 ∧
      start.toNat + size.toNat ≤ 2 ^ 64 - 1 ∧ span address len ⊆ span start size

/-- The map allows what the rule permits. -/
theorem WellFormed.isAccessible_iff (wf : m.WellFormed) (positive : len ≠ 0) :
    m.isAccessible address len = true ↔ m.Permits address len := by
  have rings : ((m.overlapping address len).any fun entry => entry.2.usage == .queueRing) = true ↔
      ¬ ∀ entry ∈ m.allocations, entry.2.usage = .queueRing →
        Disjoint (span address len) (span entry.1 entry.2.size) := by
    simp only [List.any_eq_true, wf.mem_overlapping positive, beq_iff_eq, not_forall, and_assoc,
      exists_prop]
    exact exists_congr fun entry => and_congr_right fun _ => and_comm
  have allocated := @WellFormed.preceding?_contains m address len wf positive
  have registered := @WellFormed.isRegistered_iff m address len wf positive
  have inside := allocated.or registered
  rw [← Bool.or_eq_true_iff] at inside
  rw [isAccessible]
  split
  case isTrue null => exact ⟨nofun, fun permits => absurd null permits.notNull⟩
  case isFalse notNull =>
    split
    case isTrue ring => exact ⟨nofun, fun permits => absurd permits.apart (rings.mp ring)⟩
    case isFalse spared =>
      refine inside.trans ⟨fun within => ⟨notNull, ?_, not_not.mp fun ring =>
        spared (rings.mpr ring), within⟩, Permits.within⟩
      rcases within with ⟨entry, listed, inside⟩ | ⟨start, size, -, fits, inside⟩
      · have := (wf.placed entry listed).fits
        have := ((span_subset_span positive).mp inside).2
        omega
      · exact ((span_subset_span positive).mp inside).2.trans fits

/-- The region of an address is that of the allocation in which the address lies. -/
theorem WellFormed.regionOf?_eq_some (wf : m.WellFormed) {h : Handle} :
    m.regionOf? address = some h ↔
      ∃ entry ∈ m.allocations, address.toNat ∈ span entry.1 entry.2.size ∧ entry.2.region = h := by
  have single : ∀ start size, rangeWithin start size address 1 = true ↔
      start.toNat + size.toNat < 2 ^ 64 ∧ address.toNat ∈ span start size := fun start size => by
    rw [rangeWithin_iff (by decide), span_subset_span (by decide), span, Set.mem_Ico]
    rfl
  rw [regionOf?]
  constructor
  · intro told
    cases found : m.preceding? address with
    | none =>
      rw [found] at told
      cases told
    | some entry =>
      obtain ⟨start, a⟩ := entry
      rw [found] at told
      dsimp only at told
      split at told
      case isTrue within =>
        exact ⟨_, mem_of_preceding? found, ((single start a.size).mp within).2,
          Option.some.inj told⟩
      case isFalse => cases told
  · rintro ⟨entry, listed, inside, rfl⟩
    rw [wf.preceding?_eq_some listed inside]
    exact if_pos ((single _ _).mpr ⟨(wf.placed entry listed).fits, inside⟩)

end Memory

end Accelerator
