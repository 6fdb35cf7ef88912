import Accelerator.Proofs.Accounts.Accesses
import Accelerator.Proofs.Kernarg.Segments

/-!
# Copies and writes

What the bytes of memory are after a write or a copy. A write puts its bytes in their place. A copy
puts there what was in another place before, all of it, also where the two places overlap: each byte
that it shows afterwards is one from before the copy. Nothing else changes, neither a byte outside
the range that was written nor what may be accessed. It is all the same whether the ranges lie in
allocations or in registered memory, since the byte of an address is the same however the address is
reached.

Kernels read and write values rather than bytes, and need not care for alignment. A value is read
exactly if its little-endian bytes are, and to write it is to write them.

## Bytes rather than ranges

Whatever is said here is said of the byte at one address. Two ranges can meet in many ways, and a
statement about ranges would have a case for each of them; of an address there is only to ask
whether it lies in the target. Ranges that overlap need nothing of their own, since all of the
source is read before anything is written.

## Main definitions

* `Program.loadValue`, `Program.storeValue`: accesses of kernels to values.
* `Session.Overlaid`: some bytes were put in a place, and nothing else has changed.
* `Session.Copied`: a range was copied, and nothing else has changed.
* `Session.ReadsOver`: what a range reads after some bytes were written.

## Main results

* `Contents.byteAt_write_eq`: every byte after a write.
* `Session.Hosted.copies_and_reads_back`: every byte after copies and writes, and the view of
  kernels.
-/

namespace Accelerator

/-! ### Values in memory -/

/-- Reads a value of a type; nothing is read where the access is refused. -/
def Program.loadValue (kind : Kernarg.Kind) (address : UInt64) : Program (Option Kernarg.Value) :=
  .load address kind.size fun bs => .done (bs.map kind.ofBytes)

/-- Writes a value; tells whether the access was allowed. -/
def Program.storeValue (v : Kernarg.Value) (address : UInt64) : Program Bool :=
  .store address v.bytes .done

/-! ### Bytes after a write -/

namespace Contents

/-- A write puts each byte at its distance from the first one. Distances go round at the last
address, and so do writes. -/
theorem byteAt_write_eq (bs : List UInt8) (c : Contents) (address x : UInt64)
    (fits : bs.length ≤ 2 ^ 64) :
    (c.write address bs).byteAt x = bs[(x - address).toNat]?.getD (c.byteAt x) := by
  induction bs generalizing c address with
  | nil => rfl
  | cons b rest ih =>
    rw [List.length_cons] at fits
    rw [write, ih _ _ (by omega)]
    by_cases here : x = address
    · have last : (address - (address + 1)).toNat = 2 ^ 64 - 1 := by
        rw [UInt64.toNat_sub, UInt64.toNat_add, UInt64.toNat_one]
        have := address.toNat_lt
        omega
      rw [here, last, List.getElem?_eq_none (by omega), UInt64.sub_self]
      simp
    · have next : (x - address).toNat = (x - (address + 1)).toNat + 1 := by
        have := x.toNat_lt
        have := address.toNat_lt
        rw [← UInt64.toNat_inj] at here
        rw [UInt64.toNat_sub, UInt64.toNat_sub, UInt64.toNat_add, UInt64.toNat_one]
        omega
      rw [next, List.getElem?_cons_succ, byteAt_set_of_ne c b here]

/-- What was written is read, also if the range goes round at the last address. -/
theorem read_write_self (bs : List UInt8) (c : Contents) (address : UInt64)
    (fits : bs.length ≤ 2 ^ 64) : (c.write address bs).read address bs.length = bs := by
  refine List.ext_getElem (length_read ..) fun i _ below => ?_
  have distance : (address + .ofNat i - address).toNat = i := by
    rw [UInt64.add_comm, UInt64.add_sub_cancel,
      UInt64.toNat_ofNat_of_lt' (by exact below.trans_le fits)]
  simp only [read, List.getElem_map, List.getElem_range]
  rw [byteAt_write_eq bs c address _ fits, distance, List.getElem?_eq_getElem below,
    Option.getD_some]

theorem getElem?_read {c : Contents} {address : UInt64} {count i : Nat} (below : i < count) :
    (c.read address count)[i]? = some (c.byteAt (address + .ofNat i)) := by
  rw [read, List.getElem?_map, List.getElem?_range below, Option.map_some]

end Contents

namespace Session

open Accelerator.Action

variable {s t : Session} {target source address size len : UInt64} {bs : List UInt8}

/-! ### Bytes in their place -/

/-- Some bytes were put in a place, and nothing else has changed. -/
structure Overlaid (s : Session) (target : UInt64) (bs : List UInt8) (t : Session) : Prop where
  inside : ∀ k b, bs[k]? = some b → t.memory.contents.byteAt (target + .ofNat k) = b
  elsewhere : ∀ address : UInt64,
    address.toNat ∉ Set.Ico target.toNat (target.toNat + bs.length) →
      t.memory.contents.byteAt address = s.memory.contents.byteAt address
  rest : ∃ contents, t = { s with memory := { s.memory with contents } }

/-- A range was copied, and nothing else has changed. -/
structure Copied (s : Session) (target source size : UInt64) (t : Session) : Prop where
  inside : ∀ k < size.toNat, t.memory.contents.byteAt (target + .ofNat k) =
    s.memory.contents.byteAt (source + .ofNat k)
  elsewhere : ∀ address : UInt64, address.toNat ∉ span target size →
    t.memory.contents.byteAt address = s.memory.contents.byteAt address
  rest : ∃ contents, t = { s with memory := { s.memory with contents } }

/-- Bytes are put in a place that ends with the last address at most. -/
theorem overlaid_overwrite (ends : target.toNat + bs.length ≤ 2 ^ 64) :
    s.Overlaid target bs { s with memory := s.memory.overwrite target bs } := by
  have fits : bs.length ≤ 2 ^ 64 := by omega
  have bytes := fun x => Contents.byteAt_write_eq bs s.memory.contents target x fits
  refine ⟨fun k b found => ?_, fun address outside => ?_, _, rfl⟩
  · have below : k < bs.length := (List.getElem?_eq_some_iff.mp found).1
    have distance : (target + .ofNat k - target).toNat = k := by
      rw [UInt64.add_comm, UInt64.add_sub_cancel,
        UInt64.toNat_ofNat_of_lt' (by exact below.trans_le fits)]
    rw [Memory.overwrite, bytes, distance, found, Option.getD_some]
  · have distance : bs.length ≤ (address - target).toNat := by
      have := address.toNat_lt
      have := target.toNat_lt
      rw [Set.mem_Ico, not_and_or] at outside
      rw [UInt64.toNat_sub]
      omega
    rw [Memory.overwrite, bytes, List.getElem?_eq_none distance, Option.getD_none]

/-- What may be accessed ends with the last address at most. -/
theorem Hosted.ends_of_isAccessible (hosted : s.Hosted)
    (allowed : s.memory.isAccessible address len = true) :
    address.toNat + len.toNat ≤ 2 ^ 64 := by
  rcases eq_or_ne len 0 with rfl | positive
  · exact address.toNat_lt.le
  · have ends := ((hosted.memory.isAccessible_iff positive).mp allowed).ends
    omega

theorem Overlaid.isAccessible (overlaid : s.Overlaid target bs t) (address len : UInt64) :
    t.memory.isAccessible address len = s.memory.isAccessible address len := by
  obtain ⟨contents, rfl⟩ := overlaid.rest
  rfl

/-! ### Copies -/

theorem Hosted.copied (hosted : s.Hosted) (isOpen : s.isOpen = true)
    (done : copyMemory target source size s = (.ok (), t)) : s.Copied target source size t := by
  rw [copyMemory, ensureOpen_bind isOpen, bind_apply, session_apply] at done
  dsimp only at done
  rw [Memory.copy] at done
  split at done
  · cases done
  · split at done
    case isTrue empty =>
      cases done
      subst empty
      exact ⟨fun k below => absurd below k.not_lt_zero, fun _ _ => rfl, s.memory.contents, rfl⟩
    · split at done
      · cases done
      case isFalse allowed =>
        split at done
        · cases done
        · cases done
          have ends := hosted.ends_of_isAccessible (not_not.mp allowed)
          have overlaid : s.Overlaid target (s.memory.contents.read source size.toNat) _ :=
            overlaid_overwrite (by rwa [Contents.length_read])
          refine ⟨fun k below => ?_, ?_, overlaid.rest⟩
          · exact overlaid.inside k _ (Contents.getElem?_read below)
          · have elsewhere := overlaid.elsewhere
            rwa [Contents.length_read] at elsewhere

/-! ### Writes -/

/-- What a range reads after some bytes were written: the bytes where they were put, and what it
read before elsewhere. -/
structure ReadsOver (s : Session) (target : UInt64) (bs : List UInt8) (t : Session)
    (address len : UInt64) (old new : List UInt8) : Prop where
  before : readMemory address len s = (.ok old, s)
  after : readMemory address len t = (.ok new, t)
  length : new.length = len.toNat
  bytes : ∀ i < len.toNat, new[i]? =
    if target.toNat ≤ address.toNat + i ∧ address.toNat + i < target.toNat + bs.length
    then bs[address.toNat + i - target.toNat]? else old[i]?

theorem Hosted.overlaid (hosted : s.Hosted) (isOpen : s.isOpen = true) (fits : bs.length < 2 ^ 64)
    (done : writeMemory target bs s = (.ok (), t)) : s.Overlaid target bs t := by
  rw [writeMemory_eq isOpen] at done
  split at done
  case isTrue allowed =>
    cases done
    have ends := hosted.ends_of_isAccessible allowed
    rw [UInt64.toNat_ofNat_of_lt' (by exact fits)] at ends
    exact overlaid_overwrite ends
  case isFalse => cases done

theorem Hosted.readsOver (hosted : s.Hosted) (isOpen : s.isOpen = true)
    (overlaid : s.Overlaid target bs t)
    (allowed : s.memory.isAccessible address len = true) :
    s.ReadsOver target bs t address len (s.memory.contents.read address len.toNat)
      (t.memory.contents.read address len.toNat) := by
  have isOpen' : t.isOpen = true := by
    obtain ⟨contents, rfl⟩ := overlaid.rest
    exact isOpen
  refine ⟨?_, ?_, Contents.length_read .., fun i below => ?_⟩
  · rw [readMemory_eq isOpen, if_pos allowed]
  · rw [readMemory_eq isOpen', overlaid.isAccessible, if_pos allowed]
  · have ends := hosted.ends_of_isAccessible allowed
    have here : (address + .ofNat i).toNat = address.toNat + i := Word.toNat_add_ofNat (by omega)
    rw [Contents.getElem?_read below, Contents.getElem?_read below]
    split
    case isTrue hit =>
      have inside : address.toNat + i - target.toNat < bs.length := by omega
      have found := List.getElem?_eq_getElem inside
      have same : target + .ofNat (address.toNat + i - target.toNat) = address + .ofNat i := by
        rw [← UInt64.toNat_inj, here, Word.toNat_add_ofNat (by omega)]
        omega
      rw [found, ← overlaid.inside _ _ found, same]
    case isFalse missed =>
      refine congrArg some (overlaid.elsewhere _ ?_)
      rw [here, Set.mem_Ico]
      exact missed

/-! ### The view of kernels -/

section Kernels

variable {l : Lane} (isOpen : s.isOpen = true) (same : l.memory = s.memory)
include isOpen same

/-- A kernel reads a value exactly if the application would read the bytes of the value. -/
theorem run_loadValue_eq_some {kind : Kernarg.Kind} {v : Kernarg.Value} :
    (Program.loadValue kind address).run l = (some (some v), l) ↔
      v.kind = kind ∧ readMemory address (.ofNat kind.size) s = (.ok v.bytes, s) := by
  have size : (UInt64.ofNat kind.size).toNat = kind.size := by cases kind <;> rfl
  have sized := s.memory.contents.length_read address kind.size
  rw [readMemory_eq isOpen, Program.loadValue, Program.run, Program.run, same,
    Memory.readBytes?, size]
  split
  · simp only [Option.map_some, Prod.mk.injEq, Option.some.injEq, Except.ok.injEq, and_true]
    exact Kernarg.Kind.ofBytes_eq_iff sized
  · simp

/-- A kernel is refused what the application would be refused. -/
theorem run_loadValue_eq_none {kind : Kernarg.Kind} :
    (Program.loadValue kind address).run l = (some none, l) ↔
      ∃ e, readMemory address (.ofNat kind.size) s = (.error e, s) := by
  rw [readMemory_eq isOpen, Program.loadValue, Program.run, Program.run, same,
    Memory.readBytes?]
  split <;> simp

/-- A kernel that writes a value does what the application does that writes the bytes. -/
theorem run_storeValue_eq (v : Kernarg.Value) :
    (Program.storeValue v address).run l = match writeMemory address v.bytes s with
      | (.ok (), t) => (some true, { l with memory := t.memory })
      | (.error _, _) => (some false, l) := by
  rw [writeMemory_eq isOpen, Program.storeValue, Program.run, same]
  split
  · rw [Program.run, Lane.overwrite, same]
  · rw [Program.run]

end Kernels

/-! ### All of it -/

/-- In an open session: a copy leaves in its target what was in its source before, whatever the two
share, and nothing else has changed. What is read after a write is what was written, where the two
ranges meet, and what was read before it elsewhere. Kernels read and write values just as the
application reads and writes the bytes of those values, at any address. -/
theorem Hosted.copies_and_reads_back (hosted : s.Hosted) (isOpen : s.isOpen = true) :
    (∀ target source size t, copyMemory target source size s = (.ok (), t) →
      s.Copied target source size t) ∧
    (∀ target bs t, bs.length < 2 ^ 64 → writeMemory target bs s = (.ok (), t) →
      s.Overlaid target bs t ∧
      ∀ address len, s.memory.isAccessible address len = true →
        ∃ old new, s.ReadsOver target bs t address len old new) ∧
    ∀ l : Lane, l.memory = s.memory → ∀ address,
      (∀ kind v, (Program.loadValue kind address).run l = (some (some v), l) ↔
        v.kind = kind ∧ readMemory address (.ofNat kind.size) s = (.ok v.bytes, s)) ∧
      (∀ kind, (Program.loadValue kind address).run l = (some none, l) ↔
        ∃ e, readMemory address (.ofNat kind.size) s = (.error e, s)) ∧
      ∀ v, (Program.storeValue v address).run l = match writeMemory address v.bytes s with
        | (.ok (), t) => (some true, { l with memory := t.memory })
        | (.error _, _) => (some false, l) := by
  refine ⟨fun target source size t done => hosted.copied isOpen done,
    fun target bs t fits done => ?_, fun l same address => ⟨fun kind v => ?_, fun kind => ?_,
      run_storeValue_eq isOpen same⟩⟩
  · have overlaid := hosted.overlaid isOpen fits done
    exact ⟨overlaid, fun address len allowed =>
      ⟨_, _, hosted.readsOver isOpen overlaid allowed⟩⟩
  · exact run_loadValue_eq_some isOpen same
  · exact run_loadValue_eq_none isOpen same

/-- In a block that is handed out, four bytes are copied to the place one byte behind them. -/
theorem copies_overlapping : ∃ s t : Session, s.Hosted ∧
    copyMemory 0x7f0000000001 0x7f0000000000 4 s = (.ok (), t) ∧
    s.Copied 0x7f0000000001 0x7f0000000000 4 t := by
  have opened : Ascending (.ofConfig .default) := .opened (c := .default) rfl
  have allocated := opened.step (.lasting (o := .allocate (.ofParts 0 1) 5000)
    ⟨by decide, by decide, by decide⟩ ⟨nofun, nofun⟩)
  obtain ⟨s, hosted, isOpen, t, done⟩ : ∃ s : Session, s.Hosted ∧ s.isOpen = true ∧
      ∃ t, copyMemory 0x7f0000000001 0x7f0000000000 4 s = (.ok (), t) :=
    ⟨_, allocated.hosted, rfl, _, rfl⟩
  exact ⟨s, t, hosted, done, (hosted.copies_and_reads_back isOpen).1 _ _ _ _ done⟩

end Session

end Accelerator
