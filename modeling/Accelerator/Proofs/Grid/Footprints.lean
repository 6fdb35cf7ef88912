import Accelerator.Kernel.Launch
import Mathlib.Data.Set.Insert

/-!
# The footprints of programs

A program reads some bytes of global memory and writes some. It changes no others, and what it does
depends on no others: run where global memory holds the same bytes at the addresses that it reads,
it reads and writes the same addresses and comes to the same end, whatever global memory holds
elsewhere. What may be accessed it never changes.

## Footprints belong to runs

Which address a program touches next may depend on what it has read. So a footprint is no property
of the program but of the program in a lane, by the recursion of its run.

For the same reason the induction has to carry three things at once: the value, the footprint, and
the memory that is left (`Program.SameRun`). The next access is the same only because the bytes that
were read so far were. The set of addresses where the lanes agree grows along the run, since what
both have written is the same in both.

## Main definitions

* `Memory.Refilled`: maps that hold the same ranges.
* `Footprint`, `Program.footprint`: the addresses that a program reads, and those that it writes.
* `Footprint.Spares`: what is written is neither read nor written elsewhere.
* `Memory.AgreesOn`, `Lane.AgreesOn`: the same bytes at certain addresses.

## Main results

* `Program.byteAt_run`: a program changes only the bytes that it writes.
* `Program.run_agrees`: what a program does depends only on the bytes that it reads.
* `Launch.refilled_run`: a launch does not change what may be accessed.
-/

namespace Accelerator

/-! ### What may be accessed -/

/-- Maps that hold the same ranges, while the bytes may differ. -/
def Memory.Refilled (m n : Memory) : Prop :=
  ∃ contents, n = { m with contents }

namespace Memory.Refilled

variable {m n k : Memory}

theorem refl (m : Memory) : m.Refilled m :=
  ⟨m.contents, rfl⟩

theorem symm (refilled : m.Refilled n) : n.Refilled m := by
  obtain ⟨_, rfl⟩ := refilled
  exact ⟨m.contents, rfl⟩

theorem trans (first : m.Refilled n) (second : n.Refilled k) : m.Refilled k := by
  obtain ⟨_, rfl⟩ := first
  obtain ⟨_, rfl⟩ := second
  exact ⟨_, rfl⟩

end Memory.Refilled

theorem Lane.memory_overwriteScratch (l : Lane) (scratch : Scratch) (offset : Nat)
    (bs : List UInt8) : (l.overwriteScratch scratch offset bs).memory = l.memory := by
  cases scratch <;> rfl

/-- A program does not change what may be accessed. -/
theorem Program.refilled_run {α : Type} (p : Program α) (l : Lane) :
    l.memory.Refilled (p.run l).2.memory := by
  induction p generalizing l with
  | done | panic => exact .refl _
  | load address count next ih => exact ih _ l
  | store address bytes next ih =>
    rw [run]
    split
    · exact Memory.Refilled.trans ⟨_, rfl⟩ (ih true (l.overwrite address bytes))
    · exact ih false l
  | fetchAdd width address amount next ih =>
    rw [run]
    split
    · exact Memory.Refilled.trans ⟨_, rfl⟩ (ih _ (l.overwrite address _))
    · exact ih none l
  | readScratch scratch offset count next ih =>
    rw [run]
    split
    · exact ih _ l
    · exact .refl _
  | writeScratch scratch offset bytes next ih =>
    rw [run]
    split
    · exact l.memory_overwriteScratch scratch offset bytes ▸ ih (l.overwriteScratch _ _ _)
    · exact .refl _
  | report r next ih => exact ih _

namespace Launch

theorem refilled_runItem (l : Launch) (state : LaunchState × ScratchMemory) (item : WorkItem) :
    state.1.memory.Refilled (l.runItem state item).1.memory := by
  rw [runItem]
  split
  · exact .refl _
  · exact Program.refilled_run _ _

theorem refilled_items (l : Launch) (state : LaunchState × ScratchMemory)
    (items : List WorkItem) : state.1.memory.Refilled (items.foldl l.runItem state).1.memory := by
  induction items generalizing state with
  | nil => exact .refl _
  | cons item rest ih => exact (l.refilled_runItem state item).trans (ih _)

/-- A launch does not change what may be accessed. -/
theorem refilled_run (l : Launch) (memory : Memory) (reports : List Report) :
    memory.Refilled (l.run memory reports).memory := by
  have groups : ∀ (order : List Nat) (state : LaunchState),
      state.memory.Refilled (order.foldl l.runGroup state).memory := by
    intro order
    induction order with
    | nil => exact fun state => .refl _
    | cons flat rest ih =>
      intro state
      exact (l.refilled_items (state, .zero l.groupBytes) _).trans (ih _)
  exact groups _ ⟨memory, reports, false⟩

end Launch

/-- A program does not change how large the group segment is. -/
theorem Program.size_group_run {α : Type} (p : Program α) (l : Lane) :
    (p.run l).2.group.size = l.group.size := by
  induction p generalizing l with
  | done | panic => rfl
  | load address count next ih => exact ih _ l
  | store address bytes next ih =>
    rw [run]
    split
    · exact ih true (l.overwrite address bytes)
    · exact ih false l
  | fetchAdd width address amount next ih =>
    rw [run]
    split
    · exact ih _ (l.overwrite address _)
    · exact ih none l
  | readScratch scratch offset count next ih =>
    rw [run]
    split
    · exact ih _ l
    · rfl
  | writeScratch scratch offset bytes next ih =>
    rw [run]
    split
    · refine (ih _).trans ?_
      cases scratch <;> rfl
    · rfl
  | report r next ih => exact ih _

/-! ### Ranges of bytes -/

namespace Contents

variable {c d : Contents} {S : Set UInt64} {x : UInt64}

/-- The addresses of a range of bytes. -/
def addresses (address : UInt64) (count : Nat) : List UInt64 :=
  (List.range count).map fun i => address + .ofNat i

theorem addresses_succ (address : UInt64) (count : Nat) :
    addresses address (count + 1) = address :: addresses (address + 1) count := by
  rw [addresses, addresses, List.range_succ_eq_map, List.map_cons, List.map_map]
  refine congrArg₂ List.cons (by simp) (List.map_congr_left fun i _ => ?_)
  show address + .ofNat (i + 1) = address + 1 + .ofNat i
  rw [UInt64.ofNat_add, UInt64.add_assoc, UInt64.add_comm (.ofNat i)]
  rfl

theorem read_eq_map (c : Contents) (address : UInt64) (count : Nat) :
    c.read address count = (addresses address count).map c.byteAt := by
  rw [read, addresses, List.map_map]
  rfl

/-- A write changes no bytes but those of its range. -/
theorem byteAt_write (bs : List UInt8) (c : Contents) (address : UInt64)
    (outside : x ∉ addresses address bs.length) :
    (c.write address bs).byteAt x = c.byteAt x := by
  induction bs generalizing c address with
  | nil => rfl
  | cons b rest ih =>
    rw [List.length_cons, addresses_succ, List.mem_cons, not_or] at outside
    rw [write, ih _ _ outside.2, byteAt_set_of_ne c b outside.1]

/-- The same write makes contents agree on its range. -/
theorem write_agrees (bs : List UInt8) (address : UInt64)
    (agree : ∀ x ∈ S, d.byteAt x = c.byteAt x) :
    ∀ x, x ∈ S ∨ x ∈ addresses address bs.length →
      (d.write address bs).byteAt x = (c.write address bs).byteAt x := by
  induction bs generalizing c d S address with
  | nil => simpa [addresses, write] using agree
  | cons b rest ih =>
    intro x inside
    have set : ∀ x ∈ insert address S, (d.set address b).byteAt x = (c.set address b).byteAt x := by
      intro x named
      by_cases here : x = address
      · rw [here, byteAt_set_self, byteAt_set_self]
      · rw [byteAt_set_of_ne d b here, byteAt_set_of_ne c b here]
        exact agree x (named.resolve_left here)
    refine ih (address + 1) set x ?_
    rw [List.length_cons, addresses_succ, List.mem_cons] at inside
    rcases inside with old | rfl | new
    · exact .inl (.inr old)
    · exact .inl (.inl rfl)
    · exact .inr new

end Contents

/-! ### Footprints -/

/-- The addresses of the bytes that are read, and of those that are written. -/
structure Footprint where
  reads : List UInt64
  writes : List UInt64

/-- What is read and written before, and then what is read and written after. -/
instance : Append Footprint where
  append f g := ⟨f.reads ++ g.reads, f.writes ++ g.writes⟩

namespace Footprint

/-- Nothing is read or written. -/
def nothing : Footprint := ⟨[], []⟩

/-- Nothing is written there that is read or written here. -/
def Spares (f g : Footprint) : Prop :=
  ∀ x ∈ f.writes, x ∉ g.reads ∧ x ∉ g.writes

-- an inferred instance might go through all addresses
instance (f g : Footprint) : Decidable (f.Spares g) :=
  List.decidableBAll (fun x => x ∉ g.reads ∧ x ∉ g.writes) f.writes

variable {f g : Footprint} {x : UInt64}

theorem mem_reads_append : x ∈ (f ++ g).reads ↔ x ∈ f.reads ∨ x ∈ g.reads :=
  List.mem_append

theorem mem_writes_append : x ∈ (f ++ g).writes ↔ x ∈ f.writes ∨ x ∈ g.writes :=
  List.mem_append

theorem union_nothing_subset (S : Set UInt64) : S ∪ {x | x ∈ nothing.writes} ⊆ S :=
  fun _ named => named.resolve_right List.not_mem_nil

theorem union_append_subset (S : Set UInt64) (f g : Footprint) :
    S ∪ {x | x ∈ (f ++ g).writes} ⊆ S ∪ {x | x ∈ f.writes} ∪ {x | x ∈ g.writes} := by
  rintro x (old | written)
  · exact .inl (.inl old)
  · exact (mem_writes_append.mp written).imp .inr id

end Footprint

/-- What a program reads and writes of global memory. -/
def Program.footprint {α : Type} : Program α → Lane → Footprint
  | done _, _ | panic, _ => .nothing
  | load address count next, l =>
    match l.memory.readBytes? address (.ofNat count) with
    | some bs => ⟨Contents.addresses address (UInt64.ofNat count).toNat, []⟩ ++
        (next (some bs)).footprint l
    | none => (next none).footprint l
  | store address bytes next, l =>
    if l.memory.isAccessible address (.ofNat bytes.length) then
      ⟨[], Contents.addresses address bytes.length⟩ ++
        (next true).footprint (l.overwrite address bytes)
    else (next false).footprint l
  | fetchAdd width address amount next, l =>
    match l.memory.alignedWord? width address with
    | some previous =>
      ⟨Contents.addresses address (UInt64.ofNat width).toNat, Contents.addresses address width⟩ ++
        (next (some previous)).footprint
          (l.overwrite address (Word.bytes width (previous + amount)))
    | none => (next none).footprint l
  | readScratch scratch offset count next, l =>
    match (l.scratch scratch).read? offset count with
    | some bs => (next bs).footprint l
    | none => .nothing
  | writeScratch scratch offset bytes next, l =>
    if offset + bytes.length ≤ (l.scratch scratch).size then
      next.footprint (l.overwriteScratch scratch offset bytes)
    else .nothing
  | report r next, l => next.footprint { l with reports := r :: l.reports }

section Footprint

variable {α : Type} {l l' : Lane} {m n : Memory} {S T : Set UInt64} {x : UInt64}

/-- A program changes only the bytes that it writes. -/
theorem Program.byteAt_run (p : Program α) (l : Lane) (spared : x ∉ (p.footprint l).writes) :
    (p.run l).2.memory.contents.byteAt x = l.memory.contents.byteAt x := by
  have written : ∀ {f g : Footprint}, x ∉ (f ++ g).writes → x ∉ f.writes ∧ x ∉ g.writes :=
    fun outside => not_or.mp (Footprint.mem_writes_append.not.mp outside)
  induction p generalizing l with
  | done | panic => rfl
  | load address count next ih =>
    rw [run]
    rw [footprint] at spared
    cases found : l.memory.readBytes? address (.ofNat count) with
    | none => exact ih none l (by rwa [found] at spared)
    | some bs => exact ih (some bs) l (written (by rwa [found] at spared)).2
  | store address bytes next ih =>
    rw [run]
    rw [footprint] at spared
    split at spared
    case isTrue allowed =>
      obtain ⟨here, rest⟩ := written spared
      rw [if_pos allowed, ih true _ rest]
      exact Contents.byteAt_write bytes _ _ here
    case isFalse refused =>
      rw [if_neg refused, ih false _ spared]
  | fetchAdd width address amount next ih =>
    rw [run]
    rw [footprint] at spared
    cases found : l.memory.alignedWord? width address with
    | none => exact ih none l (by rwa [found] at spared)
    | some previous =>
      obtain ⟨here, rest⟩ := written (by rwa [found] at spared)
      refine (ih (some previous) _ rest).trans (Contents.byteAt_write _ _ _ ?_)
      rwa [Word.length_bytes]
  | readScratch scratch offset count next ih =>
    rw [run]
    rw [footprint] at spared
    cases found : (l.scratch scratch).read? offset count with
    | none => rfl
    | some bs => exact ih bs l (by rwa [found] at spared)
  | writeScratch scratch offset bytes next ih =>
    rw [run]
    rw [footprint] at spared
    split
    case isTrue fits =>
      rw [if_pos fits] at spared
      rw [ih _ spared, Lane.memory_overwriteScratch]
    case isFalse => rfl
  | report r next ih => exact ih _ spared

/-- Memories with the same map that hold the same bytes at certain addresses. -/
structure Memory.AgreesOn (S : Set UInt64) (m n : Memory) : Prop where
  refilled : m.Refilled n
  bytes : ∀ x ∈ S, n.contents.byteAt x = m.contents.byteAt x

/-- Lanes with the same scratch memories whose global memories agree at certain addresses. -/
structure Lane.AgreesOn (S : Set UInt64) (l l' : Lane) : Prop where
  memory : l.memory.AgreesOn S l'.memory
  group : l'.group = l.group
  own : l'.own = l.own

namespace Memory.AgreesOn

variable (agree : m.AgreesOn S n)
include agree

theorem mono (sub : T ⊆ S) : m.AgreesOn T n :=
  ⟨agree.refilled, fun x named => agree.bytes x (sub named)⟩

theorem isAccessible (address len : UInt64) :
    n.isAccessible address len = m.isAccessible address len := by
  obtain ⟨_, rfl⟩ := agree.refilled
  rfl

theorem overwrite (address : UInt64) (bs : List UInt8) :
    (m.overwrite address bs).AgreesOn (S ∪ {x | x ∈ Contents.addresses address bs.length})
      (n.overwrite address bs) where
  refilled := by
    obtain ⟨_, rfl⟩ := agree.refilled
    exact ⟨_, rfl⟩
  bytes := Contents.write_agrees bs address agree.bytes

/-- Reading shows the same bytes. -/
theorem readBytes? (address len : UInt64)
    (named : m.isAccessible address len = true →
      ∀ x ∈ Contents.addresses address len.toNat, x ∈ S) :
    n.readBytes? address len = m.readBytes? address len := by
  rw [Memory.readBytes?, Memory.readBytes?, agree.isAccessible]
  split
  case isTrue allowed =>
    rw [Contents.read_eq_map, Contents.read_eq_map]
    exact congrArg some (List.map_congr_left fun x hx => agree.bytes x (named allowed x hx))
  case isFalse => rfl

end Memory.AgreesOn

namespace Lane.AgreesOn

variable (agree : l.AgreesOn S l')
include agree

theorem mono (sub : T ⊆ S) : l.AgreesOn T l' :=
  ⟨agree.memory.mono sub, agree.group, agree.own⟩

theorem scratch (scratch : Scratch) : l'.scratch scratch = l.scratch scratch := by
  cases scratch with
  | group => exact agree.group
  | own => exact agree.own

theorem overwrite (address : UInt64) (bs : List UInt8) :
    (l.overwrite address bs).AgreesOn (S ∪ {x | x ∈ Contents.addresses address bs.length})
      (l'.overwrite address bs) :=
  ⟨agree.memory.overwrite address bs, agree.group, agree.own⟩

theorem overwriteScratch (scratch : Scratch) (offset : Nat) (bs : List UInt8) :
    (l.overwriteScratch scratch offset bs).AgreesOn S (l'.overwriteScratch scratch offset bs) := by
  cases scratch with
  | group => exact ⟨agree.memory, congrArg (·.overwrite offset bs) agree.group, agree.own⟩
  | own => exact ⟨agree.memory, agree.group, congrArg (·.overwrite offset bs) agree.own⟩

end Lane.AgreesOn

/-- A program does the same in both lanes: it comes to the same value, reads and writes the same
addresses, and leaves the same behind there, and where the lanes agreed before. -/
structure Program.SameRun (p : Program α) (S : Set UInt64) (l l' : Lane) : Prop where
  value : (p.run l').1 = (p.run l).1
  footprint : p.footprint l' = p.footprint l
  leaves : (p.run l).2.AgreesOn (S ∪ {x | x ∈ (p.footprint l).writes}) (p.run l').2

namespace Program

variable {p k : Program α}

/-- Programs go on in the same way after the same accesses. -/
theorem SameRun.of_next {f : Footprint} {m m' : Lane} (runs : p.run l = k.run m)
    (runs' : p.run l' = k.run m') (touches : p.footprint l = f ++ k.footprint m)
    (touches' : p.footprint l' = f ++ k.footprint m')
    (after : k.SameRun (S ∪ {x | x ∈ f.writes}) m m') : p.SameRun S l l' where
  value := by rw [runs, runs', after.value]
  footprint := by rw [touches, touches', after.footprint]
  leaves := by
    rw [runs, runs', touches]
    exact after.leaves.mono (Footprint.union_append_subset _ _ _)

/-- Nothing is read or written before that. -/
theorem SameRun.of_eq {m m' : Lane} (runs : p.run l = k.run m) (runs' : p.run l' = k.run m')
    (touches : p.footprint l = k.footprint m) (touches' : p.footprint l' = k.footprint m')
    (after : k.SameRun S m m') : p.SameRun S l l' where
  value := by rw [runs, runs', after.value]
  footprint := by rw [touches, touches', after.footprint]
  leaves := by
    rw [runs, runs', touches]
    exact after.leaves

/-- A program that ends at once. -/
theorem SameRun.of_end {value : Option α} (agree : l.AgreesOn S l') (runs : p.run l = (value, l))
    (runs' : p.run l' = (value, l')) (touches : p.footprint l = .nothing)
    (touches' : p.footprint l' = .nothing) : p.SameRun S l l' where
  value := by rw [runs, runs']
  footprint := by rw [touches, touches']
  leaves := by
    rw [runs, runs', touches]
    exact agree.mono (Footprint.union_nothing_subset S)

/-- What a program does depends on no bytes of global memory but those that it reads. -/
theorem run_agrees (p : Program α) (agree : l.AgreesOn S l')
    (reads : ∀ x ∈ (p.footprint l).reads, x ∈ S) : p.SameRun S l l' := by
  induction p generalizing l l' S with
  | done | panic => exact .of_end agree rfl rfl rfl rfl
  | load address count next ih =>
    have same := agree.memory.readBytes? address (.ofNat count) fun allowed x here => by
      refine reads x ?_
      rw [footprint, Memory.readBytes?, if_pos allowed]
      exact Footprint.mem_reads_append.mpr (.inl here)
    rw [footprint] at reads
    cases found : l.memory.readBytes? address (.ofNat count) with
    | none =>
      rw [found] at same reads
      exact .of_eq (by rw [run, found]) (by rw [run, same]) (by rw [footprint, found])
        (by rw [footprint, same]) (ih none agree reads)
    | some bs =>
      rw [found] at same reads
      refine .of_next (by rw [run, found]) (by rw [run, same]) (by rw [footprint, found])
        (by rw [footprint, same]) (ih (some bs) (agree.mono ?_) fun x here => ?_)
      · exact Footprint.union_nothing_subset S
      · exact .inl (reads x (Footprint.mem_reads_append.mpr (.inr here)))
  | store address bytes next ih =>
    have same := agree.memory.isAccessible address (.ofNat bytes.length)
    rw [footprint] at reads
    cases allowed : l.memory.isAccessible address (.ofNat bytes.length) with
    | false =>
      rw [allowed] at same reads
      exact .of_eq (by simp [run, allowed]) (by simp [run, same]) (by simp [footprint, allowed])
        (by simp [footprint, same]) (ih false agree reads)
    | true =>
      rw [allowed] at same reads
      exact .of_next (by rw [run, if_pos allowed]) (by rw [run, if_pos same])
        (by rw [footprint, if_pos allowed]) (by rw [footprint, if_pos same])
        (ih true (agree.overwrite address bytes) fun x here => .inl (reads x here))
  | fetchAdd width address amount next ih =>
    have same : l'.memory.alignedWord? width address = l.memory.alignedWord? width address := by
      rw [Memory.alignedWord?, Memory.alignedWord?]
      split
      case isTrue => rfl
      case isFalse aligned =>
        refine congrArg _ (agree.memory.readBytes? address (.ofNat width) fun allowed x here => ?_)
        refine reads x ?_
        rw [footprint, Memory.alignedWord?, if_neg aligned, Memory.readBytes?, if_pos allowed]
        exact Footprint.mem_reads_append.mpr (.inl here)
    rw [footprint] at reads
    cases found : l.memory.alignedWord? width address with
    | none =>
      rw [found] at same reads
      exact .of_eq (by rw [run, found]) (by rw [run, same]) (by rw [footprint, found])
        (by rw [footprint, same]) (ih none agree reads)
    | some previous =>
      rw [found] at same reads
      have wrote := agree.overwrite address (Word.bytes width (previous + amount))
      rw [Word.length_bytes] at wrote
      exact .of_next (by rw [run, found]) (by rw [run, same]) (by rw [footprint, found])
        (by rw [footprint, same])
        (ih (some previous) wrote fun x here =>
          .inl (reads x (Footprint.mem_reads_append.mpr (.inr here))))
  | readScratch scratch offset count next ih =>
    have same := congrArg (·.read? offset count) (agree.scratch scratch)
    rw [footprint] at reads
    cases found : (l.scratch scratch).read? offset count with
    | none =>
      rw [found] at same
      exact .of_end agree (by rw [run, found]) (by rw [run, same]) (by rw [footprint, found])
        (by rw [footprint, same])
    | some bs =>
      rw [found] at same reads
      exact .of_eq (by rw [run, found]) (by rw [run, same]) (by rw [footprint, found])
        (by rw [footprint, same]) (ih bs agree reads)
  | writeScratch scratch offset bytes next ih =>
    have same := congrArg ScratchMemory.size (agree.scratch scratch)
    rw [footprint] at reads
    by_cases fits : offset + bytes.length ≤ (l.scratch scratch).size
    · have fits' := same ▸ fits
      rw [if_pos fits] at reads
      exact .of_eq (by rw [run, if_pos fits]) (by rw [run, if_pos fits'])
        (by rw [footprint, if_pos fits]) (by rw [footprint, if_pos fits'])
        (ih (agree.overwriteScratch scratch offset bytes) reads)
    · have fits' := same ▸ fits
      exact .of_end agree (by rw [run, if_neg fits]) (by rw [run, if_neg fits'])
        (by rw [footprint, if_neg fits]) (by rw [footprint, if_neg fits'])
  | report r next ih =>
    have told : Lane.AgreesOn S { l with reports := r :: l.reports }
        { l' with reports := r :: l'.reports } := ⟨agree.memory, agree.group, agree.own⟩
    obtain ⟨value, footprint, leaves⟩ := ih told reads
    exact ⟨value, footprint, leaves⟩

end Program

end Footprint

end Accelerator
