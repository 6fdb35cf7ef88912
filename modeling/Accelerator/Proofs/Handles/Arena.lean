import Accelerator.Arena
import Mathlib.Data.List.Nodup
import Mathlib.Data.Nat.Bitwise

/-!
# Handles of an arena

A slot of an arena is used again and again, each time in its next generation, so a handle names one
object only, and names it as long as that object stays in the arena. A handle is *spent* once its
object was taken out: the slot has moved on to a later generation, or its generation came round
to 0, and then it is not used any more.

## What the invariant is for

Each field of `Arena.WellFormed` keeps one thing from going wrong. With a free slot that is not
vacant, the next insertion would drop an object (`vacant`); with a slot that is free twice, two
objects would get one handle (`nodup`); an object in generation 0 would have a handle that is null,
or that counts as spent (`used`); and with more slots than numbers, two slots would have one number
(`few`).

`Arena.Spent` has two cases because a generation that came round to 0 is less than all others. It is
kept by everything that happens, and this is what makes handles unique in time.

## Main definitions

* `Arena.WellFormed`: what the free slots and the generations have in common in all arenas that
  come from an empty one.
* `Arena.Spent`: a handle whose object was taken out.

## Main results

* `Arena.get?_modify_self`, `Arena.get?_modify_of_ne`, `Arena.get?_insert_self`,
  `Arena.get?_insert_of_ne`, `Arena.get?_remove_of_ne`: looking after a change.
* `Arena.WellFormed.insert`, `Arena.WellFormed.remove`, `Arena.WellFormed.drain`,
  `Arena.WellFormed.modify`: what changes keep.
* `Arena.Spent.ne_nextHandle`, `Arena.Spent.get?_eq_none`: a spent handle is never issued again, and
  names nothing.
-/

namespace Accelerator

/-! ### The parts of a handle -/

namespace Handle

theorem toNat_ofParts (index generation : UInt32) :
    (ofParts index generation).raw.toNat = 2 ^ 32 * generation.toNat + index.toNat := by
  have low := index.toNat_lt
  have high := generation.toNat_lt
  have shifted : (generation.toUInt64 <<< 32).toNat = 2 ^ 32 * generation.toNat := by
    rw [UInt64.toNat_shiftLeft, UInt32.toNat_toUInt64, Nat.shiftLeft_eq, Nat.mul_comm]
    exact Nat.mod_eq_of_lt (by change 2 ^ 32 * _ < _; omega)
  rw [ofParts, UInt64.toNat_or, UInt32.toNat_toUInt64, shifted, ← Nat.two_pow_add_eq_or_of_lt low]

theorem toNat_index (h : Handle) : h.index.toNat = h.raw.toNat % 2 ^ 32 :=
  UInt64.toNat_toUInt32 h.raw

theorem toNat_generation (h : Handle) : h.generation.toNat = h.raw.toNat / 2 ^ 32 := by
  have := h.raw.toNat_lt
  rw [generation, UInt64.toNat_toUInt32, UInt64.toNat_shiftRight]
  change (_ >>> 32) % _ = _
  rw [Nat.shiftRight_eq_div_pow]
  exact Nat.mod_eq_of_lt (by omega)

@[simp] theorem index_ofParts (index generation : UInt32) :
    (ofParts index generation).index = index := by
  have := index.toNat_lt
  refine UInt32.toNat_inj.mp ?_
  rw [toNat_index, toNat_ofParts]
  omega

@[simp] theorem generation_ofParts (index generation : UInt32) :
    (ofParts index generation).generation = generation := by
  have := index.toNat_lt
  refine UInt32.toNat_inj.mp ?_
  rw [toNat_generation, toNat_ofParts]
  omega

/-- The two parts make the handle. -/
theorem eq_of_parts {h k : Handle} (hi : h.index = k.index) (hg : h.generation = k.generation) :
    h = k := by
  have low := congrArg UInt32.toNat hi
  have high := congrArg UInt32.toNat hg
  rw [toNat_index, toNat_index] at low
  rw [toNat_generation, toNat_generation] at high
  have raw : h.raw = k.raw := UInt64.toNat_inj.mp (by omega)
  cases h
  cases k
  cases raw
  rfl

theorem isNull_eq_false {h : Handle} (hg : h.generation ≠ 0) : h.isNull = false := by
  refine beq_eq_false_iff_ne.mpr fun zero => hg ?_
  rw [generation, zero]
  rfl

end Handle

namespace Arena

variable {α : Type} {a : Arena α} {h k : Handle} {value : α}

/-! ### Slots -/

/-- A handle finds the object of its slot if the slot is in its generation. -/
theorem get?_eq_some_iff : a.get? h = some value ↔
    h.isNull = false ∧ a.slot? h.index = some ⟨h.generation, some value⟩ := by
  rw [get?]
  cases h.isNull with
  | true => simp
  | false =>
    rcases a.slot? h.index with _ | ⟨generation, object⟩
    · simp
    · simp only [Bool.false_eq_true, if_false, Option.some.injEq, ArenaSlot.mk.injEq, true_and]
      split
      · simp [*]
      · simp [*]

/-- Looking depends on the slot of the handle only. -/
theorem get?_congr {b : Arena α} (same : b.slot? h.index = a.slot? h.index) :
    b.get? h = a.get? h := by
  rw [get?, get?, same]

theorem get?_eq_none_of_slot {generation : UInt32} {object : Option α}
    (found : a.slot? h.index = some ⟨generation, object⟩) (stale : generation ≠ h.generation) :
    a.get? h = none := by
  rw [get?, found]
  simp [stale]

/-- What the free slots and the generations have in common in all arenas: only vacant slots are
free, each once, and generation 0 is that of slots that are not used any more. -/
structure WellFormed (a : Arena α) : Prop where
  few : a.slots.size ≤ 2 ^ 32
  nodup : a.free.Nodup
  vacant : ∀ i ∈ a.free, ∃ generation, a.slot? i = some ⟨generation, none⟩ ∧ generation ≠ 0
  used : ∀ i generation value, a.slot? i = some ⟨generation, some value⟩ → generation ≠ 0

/-- The next generation is a later one unless generations came round to 0. -/
theorem lt_next_or_zero (generation : UInt32) :
    generation < generation + 1 ∨ generation + 1 = 0 := by
  have := generation.toNat_lt
  have next : (generation + 1).toNat = (generation.toNat + 1) % 2 ^ 32 := rfl
  rw [UInt32.lt_iff_toNat_lt, ← UInt32.toNat_inj, next, UInt32.toNat_zero]
  omega

/-- The object of the handle was taken out. -/
def Spent (a : Arena α) (h : Handle) : Prop :=
  ∃ slot, a.slot? h.index = some slot ∧ (h.generation < slot.generation ∨ slot.generation = 0)

theorem wellFormed_empty : (empty : Arena α).WellFormed where
  few := Nat.zero_le _
  nodup := List.nodup_nil
  vacant := by simp [empty]
  used := by simp [empty, slot?]

/-- In a well-formed arena a handle of the right generation is not null. -/
theorem WellFormed.get?_eq_some_iff (wf : a.WellFormed) :
    a.get? h = some value ↔ a.slot? h.index = some ⟨h.generation, some value⟩ := by
  refine Arena.get?_eq_some_iff.trans ⟨And.right, fun slot => ⟨?_, slot⟩⟩
  exact Handle.isNull_eq_false (wf.used _ _ _ slot)

theorem Spent.get?_eq_none (spent : a.Spent h) (wf : a.WellFormed) : a.get? h = none := by
  obtain ⟨slot, found, later⟩ := spent
  rw [Option.eq_none_iff_forall_ne_some]
  intro value live
  rw [wf.get?_eq_some_iff, found, Option.some.injEq] at live
  subst live
  rcases later with later | zero
  · exact absurd later (UInt32.lt_irrefl _)
  · exact wf.used _ _ _ found zero

/-! ### Changing an object -/

theorem slot?_modify (a : Arena α) (h : Handle) (f : α → α) (i : UInt32) :
    (a.modify h f).slot? i = (a.slot? i).map fun slot =>
      if h.index = i ∧ (a.get? h).isSome then ⟨slot.generation, slot.value.map f⟩ else slot := by
  rw [modify]
  by_cases same : h.index = i
  · split <;> simp_all [slot?, Array.getElem?_modify]
  · have apart : h.index.toNat ≠ i.toNat := fun equal => same (UInt32.toNat_inj.mp equal)
    split <;> simp [slot?, Array.getElem?_modify, apart, same]

theorem get?_modify_self (a : Arena α) (h : Handle) (f : α → α) :
    (a.modify h f).get? h = (a.get? h).map f := by
  cases live : a.get? h with
  | none =>
    rw [modify, live]
    exact live
  | some value =>
    have found := get?_eq_some_iff.mp live
    refine get?_eq_some_iff.mpr ⟨found.1, ?_⟩
    rw [slot?_modify, found.2]
    simp [live]

theorem get?_modify_of_ne (ne : k ≠ h) (f : α → α) : (a.modify h f).get? k = a.get? k := by
  cases live : a.get? h with
  | none => rw [modify, live]; rfl
  | some value =>
    have found := (get?_eq_some_iff.mp live).2
    by_cases same : h.index = k.index
    · have stale : h.generation ≠ k.generation :=
        fun equal => ne (Handle.eq_of_parts same equal).symm
      rw [same] at found
      have after : (a.modify h f).slot? k.index = some ⟨h.generation, some (f value)⟩ := by
        rw [slot?_modify, found]
        simp [same, live]
      rw [get?_eq_none_of_slot after stale, get?_eq_none_of_slot found stale]
    · refine get?_congr ?_
      rw [slot?_modify]
      simp [same]

/-- What holds of the object that is changed, after that, and of all others, holds of all. -/
theorem forall_get?_modify {P : Handle → α → Prop} {f : α → α}
    (changed : ∀ value, a.get? h = some value → P h (f value))
    (others : ∀ k value, k ≠ h → a.get? k = some value → P k value) :
    ∀ k value, (a.modify h f).get? k = some value → P k value := by
  intro k value found
  by_cases same : k = h
  · rw [same, get?_modify_self] at found
    obtain ⟨before, live, rfl⟩ := Option.map_eq_some_iff.mp found
    exact same ▸ changed before live
  · rw [get?_modify_of_ne same] at found
    exact others k value same found

/-- A change that cannot be seen in any object cannot be seen in the object of a handle. -/
theorem map_get?_modify {β : Type} {view : α → β} {f : α → α}
    (same : ∀ value, view (f value) = view value) (a : Arena α) (h k : Handle) :
    ((a.modify h f).get? k).map view = (a.get? k).map view := by
  by_cases equal : k = h
  · rw [equal, get?_modify_self, Option.map_map]
    exact congrArg (Option.map · _) (funext same)
  · rw [get?_modify_of_ne equal]

@[simp] theorem isSome_get?_modify (a : Arena α) (h k : Handle) (f : α → α) :
    ((a.modify h f).get? k).isSome = (a.get? k).isSome := by
  by_cases equal : k = h
  · rw [equal, get?_modify_self, Option.isSome_map]
  · rw [get?_modify_of_ne equal]

/-- Changing an object leaves the generations of all slots. -/
theorem exists_slot?_of_modify {f : α → α} {i : UInt32} {slot : ArenaSlot α}
    (found : (a.modify h f).slot? i = some slot) :
    ∃ before, a.slot? i = some before ∧ before.generation = slot.generation ∧
      (slot.value.isSome → before.value.isSome) := by
  rw [slot?_modify, Option.map_eq_some_iff] at found
  obtain ⟨before, found, rfl⟩ := found
  refine ⟨before, found, ?_⟩
  split <;> simp

theorem WellFormed.modify (wf : a.WellFormed) (h : Handle) (f : α → α) :
    (a.modify h f).WellFormed := by
  have free : (a.modify h f).free = a.free := by
    rw [Arena.modify]
    split <;> rfl
  refine ⟨?_, free ▸ wf.nodup, ?_, ?_⟩
  · rw [Arena.modify]
    split
    · exact Array.size_modify.trans_le wf.few
    · exact wf.few
  · intro i hi
    obtain ⟨generation, found, nonzero⟩ := wf.vacant i (free ▸ hi)
    refine ⟨generation, ?_, nonzero⟩
    rw [slot?_modify, found]
    simp
  · intro i generation value found
    obtain ⟨⟨_, object⟩, before, rfl, occupied⟩ := exists_slot?_of_modify found
    obtain ⟨object, rfl⟩ := Option.isSome_iff_exists.mp (occupied rfl)
    exact wf.used _ _ _ before

theorem Spent.modify (spent : a.Spent k) (h : Handle) (f : α → α) : (a.modify h f).Spent k := by
  obtain ⟨slot, found, later⟩ := spent
  rw [Spent, slot?_modify, found]
  refine ⟨_, rfl, ?_⟩
  split <;> exact later

/-! ### Adding an object -/

section Insert

variable (wf : a.WellFormed)
include wf

/-- The next handle belongs to a slot that is new, or vacant in the generation of the handle. -/
theorem WellFormed.slot?_nextHandle (room : a.slots.size < 2 ^ 32) :
    a.nextHandle.generation ≠ 0 ∧
      (a.slot? a.nextHandle.index = none ∨
        a.slot? a.nextHandle.index = some ⟨a.nextHandle.generation, none⟩) := by
  rw [nextHandle]
  cases free : a.free with
  | nil =>
    have fits : (UInt32.ofNat a.slots.size).toNat = a.slots.size :=
      UInt32.toNat_ofNat_of_lt' room
    refine ⟨by simp, .inl ?_⟩
    simp only [Handle.index_ofParts, slot?, fits]
    exact Array.getElem?_size
  | cons i rest =>
    obtain ⟨generation, found, nonzero⟩ := wf.vacant i (free ▸ List.mem_cons_self)
    simp [found, nonzero]

theorem WellFormed.slot?_insert (room : a.slots.size < 2 ^ 32) (value : α) (i : UInt32) :
    (a.insert value).slot? i =
      if i = a.nextHandle.index then some ⟨a.nextHandle.generation, some value⟩
      else a.slot? i := by
  rw [insert, nextHandle]
  cases free : a.free with
  | nil =>
    have fits : (UInt32.ofNat a.slots.size).toNat = a.slots.size :=
      UInt32.toNat_ofNat_of_lt' room
    simp only [slot?, Handle.index_ofParts, Handle.generation_ofParts, Array.getElem?_push,
      ← UInt32.toNat_inj, fits]
  | cons first rest =>
    obtain ⟨generation, found, _⟩ := wf.vacant first (free ▸ List.mem_cons_self)
    have place : a.slots[first.toNat]? = some ⟨generation, none⟩ := found
    simp only [slot?, Handle.index_ofParts, Handle.generation_ofParts, Array.getElem?_modify,
      ← UInt32.toNat_inj, place, Option.elim_some, eq_comm (a := first.toNat)]
    split
    · simp_all
    · rfl

theorem WellFormed.get?_nextHandle (room : a.slots.size < 2 ^ 32) :
    a.get? a.nextHandle = none := by
  rw [Option.eq_none_iff_forall_ne_some]
  intro value live
  rw [wf.get?_eq_some_iff] at live
  rcases (wf.slot?_nextHandle room).2 with none | vacant
  · simp [none] at live
  · simp [vacant] at live

theorem get?_insert_self (room : a.slots.size < 2 ^ 32) (value : α) :
    (a.insert value).get? a.nextHandle = some value := by
  refine get?_eq_some_iff.mpr ⟨Handle.isNull_eq_false (wf.slot?_nextHandle room).1, ?_⟩
  rw [wf.slot?_insert room, if_pos rfl]

theorem get?_insert_of_ne (room : a.slots.size < 2 ^ 32) (ne : k ≠ a.nextHandle) (value : α) :
    (a.insert value).get? k = a.get? k := by
  by_cases same : k.index = a.nextHandle.index
  · have stale : a.nextHandle.generation ≠ k.generation :=
      fun equal => ne (Handle.eq_of_parts same equal.symm)
    have after : (a.insert value).slot? k.index = some ⟨a.nextHandle.generation, some value⟩ := by
      rw [wf.slot?_insert room, if_pos same]
    rw [get?_eq_none_of_slot after stale]
    rcases (wf.slot?_nextHandle room).2 with none | vacant
    · rw [get?, same, none]
      simp
    · rw [← same] at vacant
      rw [get?_eq_none_of_slot vacant stale]
  · refine get?_congr ?_
    rw [wf.slot?_insert room, if_neg same]

/-- A handle whose object was taken out is not issued again. -/
theorem Spent.ne_nextHandle (spent : a.Spent h) (room : a.slots.size < 2 ^ 32) :
    h ≠ a.nextHandle := by
  rintro rfl
  obtain ⟨slot, found, later⟩ := spent
  obtain ⟨nonzero, none | vacant⟩ := wf.slot?_nextHandle room
  · simp [none] at found
  · rw [vacant, Option.some.injEq] at found
    subst found
    rcases later with later | zero
    · exact UInt32.lt_irrefl _ later
    · exact nonzero zero

theorem Spent.insert (spent : a.Spent h) (room : a.slots.size < 2 ^ 32) (value : α) :
    (a.insert value).Spent h := by
  obtain ⟨slot, found, later⟩ := spent
  rw [Spent, wf.slot?_insert room]
  split
  case isTrue same =>
    refine ⟨_, rfl, ?_⟩
    rcases (wf.slot?_nextHandle room).2 with none | vacant
    · simp [same, none] at found
    · rw [same, vacant, Option.some.injEq] at found
      subst found
      exact later
  case isFalse => exact ⟨slot, found, later⟩

theorem WellFormed.insert (room : a.slots.size < 2 ^ 32) (value : α) :
    (a.insert value).WellFormed := by
  have next := wf.slot?_nextHandle room
  refine ⟨?_, ?_, ?_, ?_⟩
  · rw [Arena.insert]
    split
    · exact (Array.size_push _).trans_le room
    · exact Array.size_modify.trans_le wf.few
  · have nodup := wf.nodup
    rw [Arena.insert]
    split
    · exact nodup
    case h_2 free => exact (List.nodup_cons.mp (free ▸ nodup)).2
  · intro i hi
    have kept : i ∈ a.free ∧ i ≠ a.nextHandle.index := by
      have nodup := wf.nodup
      rw [Arena.insert] at hi
      rw [nextHandle]
      cases free : a.free with
      | nil => simp [free] at hi
      | cons first rest =>
        rw [free] at hi nodup
        refine ⟨List.mem_cons_of_mem _ hi, ?_⟩
        rw [Handle.index_ofParts]
        rintro rfl
        exact (List.nodup_cons.mp nodup).1 hi
    rw [wf.slot?_insert room, if_neg kept.2]
    exact wf.vacant i kept.1
  · intro i generation object found
    rw [wf.slot?_insert room] at found
    split at found
    · cases found
      exact next.1
    · exact wf.used _ _ _ found

end Insert

/-! ### Taking an object out -/

section Remove

variable {b : Arena α} (removed : a.remove h = some (value, b))
include removed

theorem get?_of_remove : a.get? h = some value := by
  rw [remove, Option.map_eq_some_iff] at removed
  obtain ⟨_, live, same⟩ := removed
  cases same
  exact live

theorem slot?_remove (i : UInt32) :
    b.slot? i = if i = h.index then some ⟨h.generation + 1, none⟩ else a.slot? i := by
  have found := (get?_eq_some_iff.mp (get?_of_remove removed)).2
  rw [remove, Option.map_eq_some_iff] at removed
  obtain ⟨_, _, same⟩ := removed
  cases same
  have place : a.slots[h.index.toNat]? = some ⟨h.generation, some value⟩ := found
  simp only [slot?, Array.getElem?_modify, ← UInt32.toNat_inj, eq_comm (a := i.toNat)]
  split
  · simp_all [ArenaSlot.vacated]
  · rfl

theorem get?_remove_of_ne (ne : k ≠ h) : b.get? k = a.get? k := by
  by_cases same : k.index = h.index
  · have found := (get?_eq_some_iff.mp (get?_of_remove removed)).2
    have stale : h.generation ≠ k.generation := fun equal => ne (Handle.eq_of_parts same equal.symm)
    rw [← same] at found
    rw [get?_eq_none_of_slot found stale, get?, slot?_remove removed, if_pos same]
    simp
  · refine get?_congr ?_
    rw [slot?_remove removed, if_neg same]

theorem WellFormed.remove (wf : a.WellFormed) : b.WellFormed := by
  have found := (Arena.get?_eq_some_iff.mp (get?_of_remove removed)).2
  have busy : h.index ∉ a.free := by
    intro free
    obtain ⟨_, vacant, _⟩ := wf.vacant _ free
    rw [found] at vacant
    cases vacant
  have slots := slot?_remove removed
  have free : b.free = if h.generation + 1 = 0 then a.free else h.index :: a.free := by
    rw [Arena.remove, Option.map_eq_some_iff] at removed
    obtain ⟨_, _, same⟩ := removed
    cases same
    rfl
  refine ⟨?_, ?_, ?_, ?_⟩
  · rw [Arena.remove, Option.map_eq_some_iff] at removed
    obtain ⟨_, _, same⟩ := removed
    cases same
    exact Array.size_modify.trans_le wf.few
  · rw [free]
    split
    · exact wf.nodup
    · exact List.nodup_cons.mpr ⟨busy, wf.nodup⟩
  · intro i hi
    rw [slots]
    split
    case isTrue same =>
      refine ⟨_, rfl, fun zero => busy ?_⟩
      rwa [free, if_pos zero, same] at hi
    case isFalse other =>
      refine wf.vacant i ?_
      rw [free] at hi
      split at hi
      · exact hi
      · exact (List.mem_cons.mp hi).resolve_left other
  · intro i generation object used
    rw [slots] at used
    split at used
    · cases used
    · exact wf.used _ _ _ used

theorem Spent.of_remove : b.Spent h := by
  rw [Spent, slot?_remove removed, if_pos rfl]
  exact ⟨_, rfl, lt_next_or_zero h.generation⟩

theorem Spent.remove (wf : a.WellFormed) (spent : a.Spent k) : b.Spent k := by
  by_cases same : k.index = h.index
  · obtain ⟨slot, found, later⟩ := spent
    have live := (get?_eq_some_iff.mp (get?_of_remove removed)).2
    have nonzero := wf.used _ _ _ live
    rw [same, live, Option.some.injEq] at found
    subst found
    obtain ⟨slot, after, later'⟩ := Spent.of_remove removed
    refine ⟨slot, same ▸ after, ?_⟩
    exact later'.imp_left (UInt32.lt_trans (later.resolve_right nonzero))
  · obtain ⟨slot, found, later⟩ := spent
    exact ⟨slot, by rw [slot?_remove removed, if_neg same, found], later⟩

end Remove

/-! ### Taking all objects out -/

theorem slot?_drain (a : Arena α) (i : UInt32) :
    a.drain.slot? i =
      (a.slot? i).map fun slot => if slot.value.isSome then slot.vacated else slot :=
  Array.getElem?_map

theorem value_of_slot?_drain {i : UInt32} {slot : ArenaSlot α}
    (found : a.drain.slot? i = some slot) :
    slot.value = none := by
  rw [slot?_drain, Option.map_eq_some_iff] at found
  obtain ⟨⟨_, object⟩, -, rfl⟩ := found
  cases object <;> rfl

theorem get?_drain (a : Arena α) (h : Handle) : a.drain.get? h = none := by
  rw [Option.eq_none_iff_forall_ne_some]
  intro value live
  cases value_of_slot?_drain (get?_eq_some_iff.mp live).2

/-- The numbers of the slots that are vacated by draining and can be used again. -/
def released (a : Arena α) : List UInt32 :=
  (a.slots.toList.zipIdx.filter fun entry =>
    entry.1.value.isSome ∧ entry.1.generation + 1 ≠ 0).map fun entry => .ofNat entry.2

/-- Slots that are put on the free list one by one end up on it in reverse. -/
theorem foldl_released (entries : List (ArenaSlot α × Nat)) (free : List UInt32) :
    entries.foldl (fun free (slot, index) =>
        if slot.value.isSome ∧ slot.generation + 1 ≠ 0 then .ofNat index :: free else free) free =
      ((entries.filter fun entry =>
        entry.1.value.isSome ∧ entry.1.generation + 1 ≠ 0).map
          fun entry => .ofNat entry.2).reverse ++ free := by
  induction entries generalizing free with
  | nil => rfl
  | cons entry rest ih =>
    rw [List.foldl_cons, ih, List.filter_cons]
    simp only [decide_eq_true_eq]
    split
    · simp
    · rfl

theorem free_drain (a : Arena α) : a.drain.free = a.released.reverse ++ a.free :=
  foldl_released _ _

theorem mem_released (few : a.slots.size ≤ 2 ^ 32) {i : UInt32} : i ∈ a.released ↔
    ∃ slot, a.slot? i = some slot ∧ slot.value.isSome ∧ slot.generation + 1 ≠ 0 := by
  rw [released, List.mem_map]
  constructor
  · rintro ⟨⟨slot, n⟩, hn, rfl⟩
    rw [List.mem_filter, List.mem_zipIdx_iff_getElem?] at hn
    obtain ⟨place, kept⟩ := hn
    have small : n < a.slots.size := by
      have := (List.getElem?_eq_some_iff.mp place).1
      rwa [Array.length_toList] at this
    refine ⟨slot, ?_, of_decide_eq_true kept⟩
    rw [slot?, UInt32.toNat_ofNat_of_lt' (small.trans_le few)]
    rwa [Array.getElem?_toList] at place
  · rintro ⟨slot, found, kept⟩
    refine ⟨(slot, i.toNat), List.mem_filter.mpr ⟨?_, decide_eq_true kept⟩, UInt32.ofNat_toNat⟩
    rw [List.mem_zipIdx_iff_getElem?, Array.getElem?_toList]
    exact found

/-- The numbers of slots ascend, also as words. -/
theorem numbers_ascend (few : a.slots.size ≤ 2 ^ 32) : a.slots.toList.zipIdx.Pairwise
    fun x y => (UInt32.ofNat x.2).toNat < (UInt32.ofNat y.2).toNat := by
  have numbers : a.slots.toList.zipIdx.Pairwise fun x y => x.2 < y.2 := by
    rw [← List.pairwise_map (f := Prod.snd) (R := (· < ·)), List.zipIdx_map_snd]
    exact List.pairwise_lt_range'
  have small : ∀ entry ∈ a.slots.toList.zipIdx, entry.2 < 2 ^ 32 := fun entry he => by
    have := List.snd_lt_of_mem_zipIdx he
    rw [Array.length_toList] at this
    omega
  refine numbers.imp_of_mem fun hx hy lt => ?_
  rwa [UInt32.toNat_ofNat_of_lt' (small _ hx), UInt32.toNat_ofNat_of_lt' (small _ hy)]

theorem nodup_released (few : a.slots.size ≤ 2 ^ 32) : a.released.Nodup :=
  List.pairwise_map.mpr (List.Pairwise.filter _
    ((numbers_ascend few).imp fun lt same => lt.ne (congrArg UInt32.toNat same)))

theorem WellFormed.drain (wf : a.WellFormed) : a.drain.WellFormed := by
  refine ⟨(Array.size_map ..).trans_le wf.few, ?_, ?_, ?_⟩
  · rw [free_drain, List.nodup_append]
    refine ⟨List.nodup_reverse.mpr (nodup_released wf.few), wf.nodup, ?_⟩
    rintro i freed _ free rfl
    obtain ⟨slot, found, occupied, -⟩ := (mem_released wf.few).mp (List.mem_reverse.mp freed)
    obtain ⟨generation, vacant, -⟩ := wf.vacant i free
    rw [found, Option.some.injEq] at vacant
    subst vacant
    cases occupied
  · intro i hi
    rw [free_drain, List.mem_append, List.mem_reverse, mem_released wf.few] at hi
    rw [slot?_drain]
    rcases hi with ⟨slot, found, occupied, nonzero⟩ | free
    · rw [found, Option.map_some, if_pos occupied]
      exact ⟨_, rfl, nonzero⟩
    · obtain ⟨generation, found, nonzero⟩ := wf.vacant i free
      rw [found]
      exact ⟨_, rfl, nonzero⟩
  · intro i generation value found
    cases value_of_slot?_drain found

theorem Spent.drain (wf : a.WellFormed) (spent : a.Spent h) : a.drain.Spent h := by
  obtain ⟨⟨generation, object⟩, found, later⟩ := spent
  rw [Spent, slot?_drain, found]
  refine ⟨_, rfl, ?_⟩
  cases object with
  | none => exact later
  | some value =>
    have nonzero := wf.used _ _ _ found
    exact (lt_next_or_zero generation).imp_left (UInt32.lt_trans (later.resolve_right nonzero))

/-- Draining spends the handles of all objects. -/
theorem Spent.of_drain (live : a.get? h = some value) : a.drain.Spent h := by
  have found := (get?_eq_some_iff.mp live).2
  rw [Spent, slot?_drain, found]
  exact ⟨_, rfl, lt_next_or_zero h.generation⟩

/-! ### Listing objects -/

/-- Changing a slot changes the objects at one place of their list. -/
theorem objects_modify {slots : Array (ArenaSlot α)} {i : Nat} {slot : ArenaSlot α}
    (place : slots[i]? = some slot) (f : ArenaSlot α → ArenaSlot α) :
    ∃ before after, slots.toList.filterMap (·.value) = before ++ slot.value.toList ++ after ∧
      (slots.modify i f).toList.filterMap (·.value) =
        before ++ (f slot).value.toList ++ after := by
  obtain ⟨inside, rfl⟩ := Array.getElem?_eq_some_iff.mp place
  have split : ∀ g : ArenaSlot α → ArenaSlot α, slots.toList.modify i g =
      slots.toList.take i ++ g slots[i] :: slots.toList.drop (i + 1) := fun g => by
    rw [List.modify_eq_take_cons_drop (by simpa using inside), Array.getElem_toList]
  refine ⟨(slots.toList.take i).filterMap (·.value),
    (slots.toList.drop (i + 1)).filterMap (·.value), ?_, ?_⟩
  · have same := split id
    rw [List.modify_id] at same
    conv_lhs => rw [same]
    cases h : slots[i].value <;> simp [List.filterMap_append, h]
  · rw [Array.toList_modify, split f]
    cases h : (f slots[i]).value <;> simp [List.filterMap_append, h]

/-- An object that is inserted is listed in addition. -/
theorem WellFormed.perm_values_insert (wf : a.WellFormed) (value : α) :
    (a.insert value).values.Perm (value :: a.values) := by
  rw [Arena.insert]
  cases free : a.free with
  | nil => simp [values]
  | cons i rest =>
    obtain ⟨generation, vacant, -⟩ := wf.vacant i (free ▸ List.mem_cons_self)
    obtain ⟨before, after, same, changed⟩ := objects_modify vacant
      fun slot => { slot with value := some value }
    simp only [values, same, changed]
    simp

/-- An object that is taken out is the only one that is not listed any more. -/
theorem perm_values_remove {b : Arena α} (removed : a.remove h = some (value, b)) :
    a.values.Perm (value :: b.values) := by
  have live := (get?_eq_some_iff.mp (get?_of_remove removed)).2
  rw [Arena.remove, Option.map_eq_some_iff] at removed
  obtain ⟨_, -, same⟩ := removed
  cases same
  obtain ⟨before, after, same, changed⟩ := objects_modify live ArenaSlot.vacated
  simp only [values, same, changed]
  simp [ArenaSlot.vacated]

/-- A change that cannot be seen in any object cannot be seen in the list of objects. -/
theorem map_values_modify {β : Type} {view : α → β} {f : α → α}
    (same : ∀ value, view (f value) = view value) (a : Arena α) (h : Handle) :
    (a.modify h f).values.map view = a.values.map view := by
  cases live : a.get? h with
  | none => rw [modify, live]; rfl
  | some value =>
    obtain ⟨before, after, listed, changed⟩ := objects_modify (get?_eq_some_iff.mp live).2
      fun slot => { slot with value := slot.value.map f }
    rw [modify, live]
    simp only [Option.isSome_some, if_true, values, listed, changed]
    simp [same]

/-- Two changes of an object are one. -/
theorem modify_modify (a : Arena α) (h : Handle) (f g : α → α) :
    (a.modify h f).modify h g = a.modify h fun value => g (f value) := by
  cases live : a.get? h with
  | none =>
    have untouched : ∀ f : α → α, a.modify h f = a := fun f => by rw [modify, live]; rfl
    rw [untouched, untouched, untouched]
  | some value =>
    have after : (a.modify h f).get? h = some (f value) := by
      rw [get?_modify_self, live, Option.map_some]
    rw [modify, after, modify, modify, live]
    obtain ⟨slots, free, count⟩ := a
    refine congrArg (Arena.mk · free count) (Array.ext_getElem? fun i => ?_)
    simp only [Option.isSome_some, if_true, Array.getElem?_modify]
    split
    · cases slots[i]? with
      | none => rfl
      | some slot =>
        obtain ⟨generation, object⟩ := slot
        cases object <;> rfl
    · rfl

theorem modify_id (a : Arena α) (h : Handle) : a.modify h (fun value => value) = a := by
  obtain ⟨slots, free, count⟩ := a
  rw [modify]
  split
  · refine congrArg (Arena.mk · free count) (Array.ext_getElem? fun i => ?_)
    simp [Array.getElem?_modify]
  · rfl

/-- A change that leaves the object as it is changes nothing. -/
theorem modify_of_fixed {f : α → α} (live : a.get? h = some value) (fixed : f value = value) :
    a.modify h f = a := by
  have found := (get?_eq_some_iff.mp live).2
  obtain ⟨slots, free, count⟩ := a
  have here : slots[h.index.toNat]? = some ⟨h.generation, some value⟩ := found
  rw [modify, live]
  refine congrArg (Arena.mk · free count) (Array.ext_getElem? fun i => ?_)
  rw [Array.getElem?_modify]
  split
  case isTrue same =>
    rw [← same, here]
    simp [fixed]
  case isFalse => rfl

/-- A change that is taken back is none. -/
theorem modify_modify_cancel {f g : α → α} (cancel : ∀ value, g (f value) = value) (a : Arena α)
    (h : Handle) : (a.modify h f).modify h g = a := by
  simp only [modify_modify, cancel, modify_id]

/-- In an arena that was filled once, every object was made from its own handle. -/
theorem exists_of_get?_fill {β : Type} {make : Handle → β → α} {xs : List β}
    (found : (xs.foldl (fun (a : Arena α) x => a.insert (make a.nextHandle x)) .empty).get? h =
      some value) :
    ∃ x ∈ xs, value = make h x := by
  have numbered : ∀ (rest done : List β) (a : Arena α), a.free = [] →
      (∀ (i : Nat) generation value, a.slots[i]? = some ⟨generation, some value⟩ →
        ∃ x ∈ done, value = make (.ofParts (.ofNat i) generation) x) →
      ∀ (i : Nat) generation value,
        (rest.foldl (fun a x => a.insert (make a.nextHandle x)) a).slots[i]? =
          some ⟨generation, some value⟩ →
        ∃ x ∈ done ++ rest, value = make (.ofParts (.ofNat i) generation) x := by
    intro rest
    induction rest with
    | nil =>
      intro done a free before
      simpa using before
    | cons x rest ih =>
      intro done a free before
      rw [List.append_cons]
      refine ih (done ++ [x]) _ (by simp [Arena.insert, free]) fun i generation value placed => ?_
      simp only [Arena.insert, Arena.nextHandle, free, Array.getElem?_push] at placed
      split at placed
      case isTrue last =>
        cases placed
        exact ⟨x, by simp, by rw [last]⟩
      case isFalse =>
        obtain ⟨y, listed, same⟩ := before i generation value placed
        exact ⟨y, List.mem_append_left _ listed, same⟩
  obtain ⟨x, listed, same⟩ := numbered xs [] .empty rfl (by simp [Arena.empty]) _ _ _
    (get?_eq_some_iff.mp found).2
  refine ⟨x, listed, same.trans ?_⟩
  rw [UInt32.ofNat_toNat]
  exact congrArg (make · x)
    (Handle.eq_of_parts (Handle.index_ofParts ..) (Handle.generation_ofParts ..))

theorem values_drain (a : Arena α) : a.drain.values = [] := by
  refine List.filterMap_eq_nil_iff.mpr fun slot listed => ?_
  obtain ⟨before, -, rfl⟩ := List.mem_map.mp (Array.toList_map (f := _) ▸ listed)
  split
  · rfl
  case isFalse vacant => simpa using vacant

/-- The objects are listed with their handles. -/
theorem WellFormed.mem_entries (wf : a.WellFormed) :
    (h, value) ∈ a.entries ↔ a.get? h = some value := by
  rw [wf.get?_eq_some_iff, entries, List.mem_filterMap]
  constructor
  · rintro ⟨⟨slot, n⟩, hn, named⟩
    rw [List.mem_zipIdx_iff_getElem?, Array.getElem?_toList] at hn
    obtain ⟨value, occupied, same⟩ := Option.map_eq_some_iff.mp named
    cases same
    have small := (Array.getElem?_eq_some_iff.mp hn).1
    rw [Handle.index_ofParts, Handle.generation_ofParts, slot?,
      UInt32.toNat_ofNat_of_lt' (small.trans_le wf.few), ← occupied]
    exact hn
  · intro found
    refine ⟨(⟨h.generation, some value⟩, h.index.toNat), ?_, ?_⟩
    · rw [List.mem_zipIdx_iff_getElem?, Array.getElem?_toList]
      exact found
    · refine congrArg some (Prod.ext (Handle.eq_of_parts ?_ ?_) rfl)
      · rw [Handle.index_ofParts, UInt32.ofNat_toNat]
      · rw [Handle.generation_ofParts]

theorem map_snd_entries (a : Arena α) : a.entries.map Prod.snd = a.values := by
  rw [entries, values, List.map_filterMap]
  have slots : a.slots.toList = a.slots.toList.zipIdx.map Prod.fst := by simp
  conv_rhs => rw [slots, List.filterMap_map]
  refine List.filterMap_congr fun entry _ => ?_
  cases occupied : entry.1.value <;> simp [occupied]

/-- The objects that are listed are those that can be found. -/
theorem WellFormed.mem_values (wf : a.WellFormed) :
    value ∈ a.values ↔ ∃ h, a.get? h = some value := by
  rw [← map_snd_entries, List.mem_map]
  constructor
  · rintro ⟨⟨h, _⟩, listed, rfl⟩
    exact ⟨h, wf.mem_entries.mp listed⟩
  · rintro ⟨h, found⟩
    exact ⟨(h, value), wf.mem_entries.mpr found, rfl⟩

end Arena

end Accelerator
