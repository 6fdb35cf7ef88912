import Accelerator.Proofs.Code.Changes
import Accelerator.Proofs.Grid.Admission

/-!
# The kernel table

The kernels of an executable get their numbers when it is frozen, one after another from where the
last executable left off. As long as the numbers do not come round, no number is given twice: not to
two kernels of one executable, not to kernels of two, and not again when an executable has been
destroyed. So the table names exactly the kernels of the frozen executables that are live, and
destroying one takes out its own kernels and no others.

## The bound, and what the induction carries

The numbers of kernels are words that lie `0x40` apart, so they come round at some time. Below
`2 ^ 57` kernels they are distinct, and none of them is 0, which is the number of a kernel that has
not got one yet. All hypotheses on the number of kernels are this one.

Of the invariant, `apart` and `entries` are wanted. What carries them is `numbered`, by which all
numbers lie below the next one: so a new number is none of the old ones, also not that of an
executable that was destroyed. `thawed` keeps the kernels without a number from being mistaken for
one that is in the table.

## Main definitions

* `Code.objectAt`: the numbers of kernels, in the order in which they are given.
* `Code.Numbered`: the invariant.
* `Session.Reports`: the kernels that the application is told of.
* `Session.TableMirrors`: the kernel table mirrors the live frozen executables.
* `Session.CodeLasts`: what stays of code whatever happens.

## Main results

* `Code.Numbered.change`: any change of code.
* `Session.CodeRun.table_mirrors`: along every run the kernel table mirrors the live frozen
  executables, and what is numbered stays so.
-/

namespace Accelerator

/-- The executable later on: its kernels stay in their places, and nothing changes any more once it
is frozen. -/
structure Executable.Lasts (e e' : Executable) : Prop where
  symbols : ∀ (i : Nat) (symbol : Symbol), e.symbols[i]? = some symbol →
    ∃ symbol' : Symbol, e'.symbols[i]? = some symbol' ∧ symbol'.agent = symbol.agent ∧
      symbol'.kernel = symbol.kernel
  frozen : e.frozen = true → e' = e

namespace Executable

variable {e e' e'' : Executable} {agent : Handle} {code : CodeObject} {first : UInt64}

theorem Lasts.refl (e : Executable) : e.Lasts e :=
  ⟨fun _ symbol found => ⟨symbol, found, rfl, rfl⟩, fun _ => rfl⟩

theorem Lasts.trans (one : e.Lasts e') (two : e'.Lasts e'') : e.Lasts e'' := by
  refine ⟨fun i symbol found => ?_, fun frozen => ?_⟩
  · obtain ⟨middle, found, agent, kernel⟩ := one.symbols i symbol found
    obtain ⟨last, found, agent', kernel'⟩ := two.symbols i middle found
    exact ⟨last, found, agent'.trans agent, kernel'.trans kernel⟩
  · have same := one.frozen frozen
    rw [two.frozen (same.symm ▸ frozen), same]

theorem Lasts.load (loaded : e.load agent code = .ok e') : e.Lasts e' := by
  obtain ⟨thawed, rfl⟩ := load_eq_ok loaded
  refine ⟨fun i symbol found => ?_, fun frozen => absurd (thawed.symm.trans frozen) (by decide)⟩
  obtain ⟨inside, -⟩ := List.getElem?_eq_some_iff.mp found
  exact ⟨symbol, (List.getElem?_append_left inside).trans found, rfl, rfl⟩

theorem Lasts.freeze (froze : e.freeze first = .ok e') : e.Lasts e' := by
  obtain ⟨thawed, rfl⟩ := freeze_eq_ok froze
  refine ⟨fun i symbol found => ?_, fun frozen => absurd (thawed.symm.trans frozen) (by decide)⟩
  refine ⟨{ symbol with kernelObject := first + objectStride * UInt64.ofNat i }, ?_, rfl, rfl⟩
  rw [getElem?_number, found]
  rfl

/-- An executable that is not frozen is in no table. -/
theorem table_of_thawed (thawed : e.frozen = false) : e.table = [] := by
  rw [table, thawed]
  rfl

theorem mem_table {object : UInt64} {kernel : Kernel} : (object, kernel) ∈ e.table ↔
    e.frozen = true ∧
      ∃ symbol ∈ e.symbols, symbol.kernelObject = object ∧ symbol.kernel = kernel := by
  rw [table]
  split
  case isTrue frozen => simp [frozen]
  case isFalse thawed => simp [thawed]

end Executable

/-- What is left of a table has none of the numbers that were taken out. -/
theorem KernelTable.mem_withdraw {t gone : KernelTable} {entry : UInt64 × Kernel} :
    entry ∈ t.withdraw gone ↔ entry ∈ t ∧ ∀ other ∈ gone, other.1 ≠ entry.1 := by
  simp [withdraw]

namespace Code

variable {c d : Code} {events : List CodeEvent} {n : Nat} {h : Handle} {e : Executable}

/-! ### Numbers -/

/-- The number of the kernel before which so many others were numbered. -/
def objectAt (n : Nat) : UInt64 :=
  Session.firstKernelObject + Executable.objectStride * UInt64.ofNat n

theorem toNat_objectAt (few : n < 2 ^ 57) : (objectAt n).toNat = 0x1000 + 0x40 * n := by
  have small : (UInt64.ofNat n).toNat = n := UInt64.toNat_ofNat_of_lt' (few.trans (by decide))
  have first : Session.firstKernelObject.toNat = 0x1000 := rfl
  have stride : Executable.objectStride.toNat = 0x40 := rfl
  rw [objectAt, UInt64.toNat_add, UInt64.toNat_mul, small, first, stride]
  omega

theorem objectAt_ne_zero (few : n < 2 ^ 57) : objectAt n ≠ 0 := by
  intro zero
  have number := toNat_objectAt few
  rw [zero] at number
  simp at number
  omega

theorem objectAt_inj {m : Nat} (few : n < 2 ^ 57) (few' : m < 2 ^ 57)
    (same : objectAt n = objectAt m) : n = m := by
  have numbers := congrArg UInt64.toNat same
  rw [toNat_objectAt few, toNat_objectAt few'] at numbers
  omega

theorem objectAt_add (n i : Nat) :
    objectAt n + Executable.objectStride * UInt64.ofNat i = objectAt (n + i) := by
  rw [objectAt, objectAt, UInt64.ofNat_add, UInt64.mul_add, UInt64.add_assoc]

/-- The kernel at a place of a frozen executable, destroyed or not. -/
def Frozen (c : Code) (h : Handle) (i : Nat) (symbol : Symbol) : Prop :=
  ∃ e, c.executables.held? h = some e ∧ e.frozen = true ∧ e.symbols[i]? = some symbol

/-- A live frozen executable has an entry in its table. -/
def Tabled (c : Code) (entry : UInt64 × Kernel) : Prop :=
  ∃ h e, c.executables.get? h = some e ∧ entry ∈ e.table

/-- So many kernels have been numbered: each has a number of its own, and the table has the entries
of the live frozen executables. -/
structure Numbered (c : Code) (n : Nat) : Prop where
  next : c.nextKernelObject = objectAt n
  thawed : ∀ h e, c.executables.held? h = some e → e.frozen = false →
    ∀ symbol ∈ e.symbols, symbol.kernelObject = 0
  numbered : ∀ h i symbol, c.Frozen h i symbol → ∃ k < n, symbol.kernelObject = objectAt k
  apart : ∀ h i symbol k j other, c.Frozen h i symbol → c.Frozen k j other →
    symbol.kernelObject = other.kernelObject → h = k ∧ i = j
  entries : ∀ entry, entry ∈ c.kernels ↔ c.Tabled entry

/-! ### Changes -/

/-- Of two entries of live executables with one number, both are the same. -/
theorem Numbered.tabled_unique (inv : c.Numbered n) {object : UInt64} {kernel other : Kernel}
    {h k : Handle} {e f : Executable} (live : c.executables.get? h = some e)
    (live' : c.executables.get? k = some f) (named : (object, kernel) ∈ e.table)
    (named' : (object, other) ∈ f.table) : h = k ∧ kernel = other := by
  obtain ⟨frozen, symbol, mem, rfl, rfl⟩ := Executable.mem_table.mp named
  obtain ⟨frozen', symbol', mem', same, rfl⟩ := Executable.mem_table.mp named'
  obtain ⟨i, place⟩ := List.mem_iff_getElem?.mp mem
  obtain ⟨j, place'⟩ := List.mem_iff_getElem?.mp mem'
  obtain ⟨rfl, rfl⟩ := inv.apart h i symbol k j symbol'
    ⟨e, Directory.held?_of_get? live, frozen, place⟩
    ⟨f, Directory.held?_of_get? live', frozen', place'⟩ same.symm
  obtain rfl : e = f := Option.some.inj (live.symm.trans live')
  obtain rfl : symbol = symbol' := Option.some.inj (place.symm.trans place')
  exact ⟨rfl, rfl⟩

/-- Executables among which one is put in the place of another that is not frozen, or where there
was none. -/
structure Puts (c : Code) (h : Handle) (e : Executable) (executables : Directory Executable) :
    Prop where
  held : ∀ k, executables.held? k = if k = h then some e else c.executables.held? k
  live : ∀ k, executables.get? k = if k = h then some e else c.executables.get? k
  thawed : ∀ before, c.executables.held? h = some before → before.frozen = false

namespace Puts

variable {executables : Directory Executable}

theorem create (wf : c.executables.WellFormed Executable.handle)
    (room : c.executables.live.slots.size < 2 ^ 32) :
    c.Puts c.executables.nextHandle (.ofHandle c.executables.nextHandle)
      (c.executables.insert (.ofHandle c.executables.nextHandle)) where
  held := Directory.held?_insert wf room _
  live := Directory.get?_insert wf room _
  thawed _ held := absurd rfl (wf.ne_nextHandle room held)

theorem modify {before : Executable} (live : c.executables.get? h = some before)
    (thawed : before.frozen = false) : c.Puts h e (c.executables.modify h fun _ => e) where
  held := Directory.held?_modify live _
  live k := by rw [Directory.get?_modify, live]; rfl
  thawed _ held := Directory.eq_of_held? held live ▸ thawed

/-- An entry of a live executable belongs to the one that was put, or to another. -/
theorem tabled_iff (puts : c.Puts h e executables) (entry : UInt64 × Kernel) (kernels : KernelTable)
    (next : UInt64) : Tabled ⟨executables, kernels, next⟩ entry ↔
      entry ∈ e.table ∨ c.Tabled entry := by
  constructor
  · rintro ⟨k, f, live, named⟩
    rw [puts.live] at live
    split at live
    · cases live
      exact .inl named
    · exact .inr ⟨k, f, live, named⟩
  · rintro (named | ⟨k, f, live, named⟩)
    · exact ⟨h, e, (puts.live h).trans (if_pos rfl), named⟩
    · have other : k ≠ h := by
        rintro rfl
        have none := Executable.table_of_thawed (puts.thawed f (Directory.held?_of_get? live))
        rw [none] at named
        cases named
      exact ⟨k, f, (puts.live k).trans ((if_neg other).trans live), named⟩

/-- A frozen kernel belongs to the executable that was put, or to another. -/
theorem frozen_cases (puts : c.Puts h e executables) {kernels : KernelTable} {next : UInt64}
    {k : Handle} {i : Nat} {symbol : Symbol}
    (frozen : Frozen ⟨executables, kernels, next⟩ k i symbol) :
    k = h ∧ e.frozen = true ∧ e.symbols[i]? = some symbol ∨ c.Frozen k i symbol := by
  obtain ⟨f, held, frozen, place⟩ := frozen
  rw [puts.held] at held
  split at held
  case isTrue same =>
    cases held
    exact .inl ⟨same, frozen, place⟩
  case isFalse => exact .inr ⟨f, held, frozen, place⟩

end Puts

namespace Numbered

variable {executables : Directory Executable}

/-- No kernel is numbered. -/
theorem of_frozen (inv : c.Numbered n) (next : d.nextKernelObject = c.nextKernelObject)
    (thawed : ∀ h e, d.executables.held? h = some e → e.frozen = false →
      ∀ symbol ∈ e.symbols, symbol.kernelObject = 0)
    (frozen : ∀ {h i symbol}, d.Frozen h i symbol → c.Frozen h i symbol)
    (entries : ∀ entry, entry ∈ d.kernels ↔ d.Tabled entry) : d.Numbered n where
  next := next.trans inv.next
  thawed := thawed
  numbered h i symbol one := inv.numbered h i symbol (frozen one)
  apart h i symbol k j other one two := inv.apart h i symbol k j other (frozen one) (frozen two)
  entries := entries

/-- An executable that is not frozen, with kernels that have no numbers. -/
theorem put_thawed (inv : c.Numbered n) (puts : c.Puts h e executables) (thawed : e.frozen = false)
    (bare : ∀ symbol ∈ e.symbols, symbol.kernelObject = 0) :
    Numbered { c with executables } n := by
  refine inv.of_frozen rfl (fun k f held thawed' => ?_) (fun {k i symbol} frozen => ?_)
    fun entry => ?_
  · rw [puts.held] at held
    split at held
    · cases held
      exact bare
    · exact inv.thawed k f held thawed'
  · rcases puts.frozen_cases frozen with ⟨-, frozen, -⟩ | frozen
    · cases thawed.symm.trans frozen
    · exact frozen
  · rw [puts.tabled_iff, Executable.table_of_thawed thawed]
    simpa using inv.entries entry

/-- An executable with kernels that have the next numbers. -/
theorem put_frozen (inv : c.Numbered n) (puts : c.Puts h e executables) (frozen : e.frozen = true)
    (objects : ∀ (i : Nat) (symbol : Symbol), e.symbols[i]? = some symbol →
      symbol.kernelObject = objectAt (n + i))
    (few : n + e.symbols.length < 2 ^ 57) :
    Numbered ⟨executables, c.kernels.add e.table, objectAt (n + e.symbols.length)⟩
      (n + e.symbols.length) := by
  have inside : ∀ {i : Nat} {symbol}, e.symbols[i]? = some symbol → i < e.symbols.length :=
    fun place => (List.getElem?_eq_some_iff.mp place).1
  -- the new numbers are above all that were given before
  have fresh : ∀ {i : Nat} {symbol : Symbol} {k j other}, e.symbols[i]? = some symbol →
      c.Frozen k j other → symbol.kernelObject ≠ other.kernelObject := by
    intro i symbol k j other place old same
    obtain ⟨m, before, number⟩ := inv.numbered k j other old
    have bound := inside place
    rw [objects i symbol place, number] at same
    have := objectAt_inj (by omega) (by omega) same
    omega
  refine ⟨rfl, fun k f held thawed => ?_, fun k i symbol named => ?_,
    fun k i symbol k' j other one two same => ?_, fun entry => ?_⟩
  · rw [puts.held] at held
    split at held
    · cases held
      cases frozen.symm.trans thawed
    · exact inv.thawed k f held thawed
  · rcases puts.frozen_cases named with ⟨-, -, place⟩ | old
    · exact ⟨n + i, by have := inside place; omega, objects i symbol place⟩
    · obtain ⟨m, before, number⟩ := inv.numbered k i symbol old
      exact ⟨m, by omega, number⟩
  · rcases puts.frozen_cases one with ⟨rfl, -, place⟩ | old
    · rcases puts.frozen_cases two with ⟨rfl, -, place'⟩ | old'
      · have bound := inside place
        have bound' := inside place'
        rw [objects i symbol place, objects j other place'] at same
        have := objectAt_inj (by omega) (by omega) same
        exact ⟨rfl, by omega⟩
      · exact absurd same (fresh place old')
    · rcases puts.frozen_cases two with ⟨rfl, -, place'⟩ | old'
      · exact absurd same.symm (fresh place' old)
      · exact inv.apart k i symbol k' j other old old' same
  · rw [puts.tabled_iff, ← inv.entries]
    simp [KernelTable.add]

/-- Executables are taken out, and their entries with them. -/
theorem take (inv : c.Numbered n) {kernels : KernelTable}
    (held : ∀ k, executables.held? k = c.executables.held? k)
    (entries : ∀ entry, entry ∈ kernels ↔ Tabled { c with executables } entry) :
    Numbered { c with executables, kernels } n := by
  refine inv.of_frozen rfl (fun k e found => inv.thawed k e ((held k).symm.trans found))
    (fun {k i symbol} frozen => ?_) entries
  obtain ⟨e, found, rest⟩ := frozen
  exact ⟨e, (held k).symm.trans found, rest⟩

/-- The table without the entries of an executable that is taken out. -/
theorem mem_withdraw (inv : c.Numbered n) (wf : c.executables.WellFormed Executable.handle)
    (removed : c.executables.remove h id = some (e, executables)) (entry : UInt64 × Kernel) :
    entry ∈ c.kernels.withdraw e.table ↔ Tabled { c with executables } entry := by
  obtain ⟨before, -, -, live, same, -⟩ := Directory.remove_eq_some removed
  obtain rfl : e = before := same
  obtain ⟨object, kernel⟩ := entry
  rw [KernelTable.mem_withdraw, inv.entries]
  constructor
  · rintro ⟨⟨k, f, found, named⟩, kept⟩
    have other : k ≠ h := by
      rintro rfl
      obtain rfl : f = e := Option.some.inj (found.symm.trans live)
      exact kept _ named rfl
    exact ⟨k, f, by rw [Directory.get?_remove wf removed, if_neg other, found], named⟩
  · rintro ⟨k, f, found, named⟩
    rw [Directory.get?_remove wf removed] at found
    split at found
    case isTrue => cases found
    case isFalse other =>
      refine ⟨⟨k, f, found, named⟩, ?_⟩
      -- an entry of the executable with this number would make it the other one
      rintro ⟨number, _⟩ listed rfl
      exact other (inv.tabled_unique found live named listed).1

/-- Whatever happens to code, the numbers stay distinct and the table right. -/
theorem change (inv : c.Numbered n) (wf : c.executables.WellFormed Executable.handle)
    (change : c.Change events d)
    (few : n + CodeEvent.frozenTotal events < 2 ^ 57) :
    d.Numbered (n + CodeEvent.frozenTotal events) := by
  cases change with
  | nothing => exact inv
  | create room => exact inv.put_thawed (.create wf room) rfl (fun _ none => by cases none)
  | @load h agent code e e' live loaded =>
    obtain ⟨thawed, rfl⟩ := Executable.load_eq_ok loaded
    refine inv.put_thawed (.modify live thawed) thawed fun symbol listed => ?_
    rcases List.mem_append.mp listed with old | new
    · exact inv.thawed h e (Directory.held?_of_get? live) thawed symbol old
    · obtain ⟨kernel, -, rfl⟩ := List.mem_map.mp new
      rfl
  | @freeze h e e' live froze =>
    obtain ⟨thawed, rfl⟩ := Executable.freeze_eq_ok froze
    have puts := Puts.modify (c := c) (e := { e with
      frozen := true, symbols := Executable.number c.nextKernelObject e.symbols }) live thawed
    have objects : ∀ i symbol, (Executable.number c.nextKernelObject e.symbols)[i]? = some symbol →
        symbol.kernelObject = objectAt (n + i) := by
      intro i symbol place
      rw [Executable.getElem?_number] at place
      obtain ⟨old, -, rfl⟩ := Option.map_eq_some_iff.mp place
      rw [inv.next]
      exact objectAt_add n i
    have total : CodeEvent.frozenTotal [.froze h e.symbols.length] = e.symbols.length := rfl
    rw [total] at few ⊢
    have numbered := inv.put_frozen puts rfl objects (by simpa using few)
    rw [inv.next, objectAt_add]
    simpa [inv.next] using numbered
  | destroy removed =>
    exact inv.take (Directory.held?_remove_id wf removed) (inv.mem_withdraw wf removed)
  | drain =>
    refine inv.take (Directory.held?_drain_id wf) fun entry => ?_
    constructor
    · intro none
      cases none
    · rintro ⟨k, e, live, -⟩
      cases (Directory.get?_drain ..).symm.trans live

end Numbered

/-- A number resolves to a kernel if a live frozen executable gave it to the kernel. -/
theorem Numbered.find?_iff (inv : c.Numbered n) {object : UInt64} {kernel : Kernel} :
    c.kernels.find? object = some kernel ↔ ∃ h e, c.executables.get? h = some e ∧
      e.frozen = true ∧ ∃ symbol ∈ e.symbols, symbol.kernelObject = object ∧
        symbol.kernel = kernel := by
  constructor
  · intro found
    obtain ⟨h, e, live, named⟩ := (inv.entries _).mp (mem_of_lookup found)
    exact ⟨h, e, live, Executable.mem_table.mp named⟩
  · rintro ⟨h, e, live, named⟩
    have named := Executable.mem_table.mpr named
    refine lookup_of_mem ((inv.entries _).mpr ⟨h, e, live, named⟩) fun other listed => ?_
    obtain ⟨k, f, live', named'⟩ := (inv.entries _).mp listed
    exact (inv.tabled_unique live' live named' named).2

section Few

variable {i j : Nat} {symbol other : Symbol} {k : Handle} {f : Executable}
variable (inv : c.Numbered n) (few : n < 2 ^ 57)
include inv few

theorem Numbered.ne_zero (frozen : c.Frozen h i symbol) : symbol.kernelObject ≠ 0 := by
  obtain ⟨k, before, number⟩ := inv.numbered h i symbol frozen
  rw [number]
  exact objectAt_ne_zero (before.trans few)

/-- No other kernel has the number of a frozen one, frozen or not. -/
theorem Numbered.apart_held (frozen : c.Frozen h i symbol)
    (held : c.executables.held? k = some f) (place : f.symbols[j]? = some other)
    (same : symbol.kernelObject = other.kernelObject) : h = k ∧ i = j := by
  cases frozen' : f.frozen with
  | true => exact inv.apart h i symbol k j other frozen ⟨f, held, frozen', place⟩ same
  | false =>
    have zero := inv.thawed k f held frozen' other (List.mem_of_getElem? place)
    exact absurd (same.trans zero) (inv.ne_zero few frozen)

theorem Numbered.find?_zero : c.kernels.find? 0 = none := by
  refine Option.eq_none_iff_forall_ne_some.mpr fun kernel found => ?_
  obtain ⟨h, e, live, frozen, symbol, listed, zero, -⟩ := inv.find?_iff.mp found
  obtain ⟨i, place⟩ := List.mem_iff_getElem?.mp listed
  exact inv.ne_zero few ⟨e, Directory.held?_of_get? live, frozen, place⟩ zero

/-- The number of a kernel that was destroyed resolves to none. -/
theorem Numbered.find?_of_gone (held : c.executables.held? h = some e)
    (gone : c.executables.get? h = none) (listed : symbol ∈ e.symbols) :
    c.kernels.find? symbol.kernelObject = none := by
  cases frozen : e.frozen with
  | false =>
    rw [inv.thawed h e held frozen symbol listed]
    exact inv.find?_zero few
  | true =>
    refine Option.eq_none_iff_forall_ne_some.mpr fun kernel found => ?_
    obtain ⟨k, f, live, -, other, listed', same, -⟩ := inv.find?_iff.mp found
    obtain ⟨i, place⟩ := List.mem_iff_getElem?.mp listed
    obtain ⟨j, place'⟩ := List.mem_iff_getElem?.mp listed'
    obtain ⟨rfl, -⟩ := inv.apart_held few ⟨e, held, frozen, place⟩ (Directory.held?_of_get? live)
      place' same.symm
    cases gone.symm.trans live

end Few

/-- Whatever happens to code, executables last, and those that were taken out stay out. -/
theorem Change.lasts (change : c.Change events d)
    (wf : c.executables.WellFormed Executable.handle) (held : c.executables.held? h = some e) :
    (∃ e', d.executables.held? h = some e' ∧ e.Lasts e') ∧
      (c.executables.get? h = none → d.executables.get? h = none) := by
  have untouched : ∀ {executables : Directory Executable},
      executables.held? h = c.executables.held? h →
      ∃ e', executables.held? h = some e' ∧ e.Lasts e' :=
    fun same => ⟨e, same.trans held, .refl e⟩
  have modified : ∀ {k : Handle} {f f' : Executable}, c.executables.get? k = some f → f.Lasts f' →
      (∃ e', (c.executables.modify k fun _ => f').held? h = some e' ∧ e.Lasts e') ∧
        (c.executables.get? h = none → (c.executables.modify k fun _ => f').get? h = none) := by
    intro k f f' live lasts
    rw [Directory.held?_modify live, Directory.get?_modify]
    split
    case isTrue same =>
      subst same
      obtain rfl := Directory.eq_of_held? held live
      exact ⟨⟨f', rfl, lasts⟩, fun gone => by cases gone.symm.trans live⟩
    case isFalse => exact ⟨⟨e, held, .refl e⟩, id⟩
  cases change with
  | nothing => exact ⟨untouched rfl, id⟩
  | create room =>
    have other := wf.ne_nextHandle room held
    refine ⟨untouched ?_, fun gone => ?_⟩
    · rw [Directory.held?_insert wf room, if_neg other]
    · rw [Directory.get?_insert wf room, if_neg other, gone]
  | load live loaded => exact modified live (.load loaded)
  | freeze live froze => exact modified live (.freeze froze)
  | @destroy k f executables removed =>
    refine ⟨untouched (Directory.held?_remove_id wf removed h), fun gone => ?_⟩
    rw [Directory.get?_remove wf removed, gone, ite_self]
  | drain => exact ⟨untouched (Directory.held?_drain_id wf h), fun _ => Directory.get?_drain ..⟩

end Code

/-! ### Runs -/

namespace Session

open CodeEvent Accelerator.Action

variable {s t : Session} {events more : List CodeEvent} {n : Nat}

/-- The application is told of a kernel of an executable: it asks for the kernel by name, or goes
through all kernels. -/
def Reports (s : Session) (h : Handle) (symbol : Symbol) : Prop :=
  (∃ name agent, (Session.symbol h name agent s).1 = .ok symbol) ∨
    (∃ name agent, (heldSymbol h name agent s).1 = .ok symbol) ∨
      ∃ all, (symbols h s).1 = .ok all ∧ symbol ∈ all

/-- The application is told of kernels as they are. -/
theorem Reports.mem {h : Handle} {symbol : Symbol} (reports : s.Reports h symbol) :
    ∃ e, s.heldExecutable? h = some e ∧ symbol ∈ e.symbols := by
  rcases reports with ⟨name, agent, told⟩ | ⟨name, agent, told⟩ | ⟨all, told, listed⟩
  · have answer : Session.symbol h name agent s = (.ok symbol, _) := Prod.ext told rfl
    simp only [Session.symbol, bind_eq_ok, demand_eq_ok] at answer
    obtain ⟨e, _, found, a, _, hosted, named, -⟩ := answer
    obtain ⟨-, live, rfl⟩ := executable_eq_ok found
    exact ⟨e, Directory.held?_of_get? live, List.mem_of_find?_eq_some named⟩
  · have answer : heldSymbol h name agent s = (.ok symbol, _) := Prod.ext told rfl
    simp only [heldSymbol, bind_eq_ok, ensureOpen_eq_ok, session_eq_ok, demand_eq_ok] at answer
    obtain ⟨_, _, ⟨-, rfl⟩, _, _, ⟨rfl, rfl⟩, e, _, ⟨held, rfl⟩, named, -⟩ := answer
    exact ⟨e, held, List.mem_of_find?_eq_some named⟩
  · have answer : symbols h s = (.ok all, _) := Prod.ext told rfl
    simp only [symbols, bind_eq_ok, pure_eq_ok] at answer
    obtain ⟨e, _, found, rfl, -⟩ := answer
    obtain ⟨-, live, rfl⟩ := executable_eq_ok found
    exact ⟨e, Directory.held?_of_get? live, listed⟩

/-- The kernel table mirrors the live frozen executables. A kernel that is not frozen has the number
0; a frozen one has a number of its own, and keeps it when its executable is destroyed. -/
structure TableMirrors (s : Session) : Prop where
  reported : ∀ h symbol, s.Reports h symbol →
    ∃ e, s.heldExecutable? h = some e ∧ symbol ∈ e.symbols
  resolves_iff : ∀ object kernel, s.kernels.find? object = some kernel ↔
    ∃ h e, s.executables.get? h = some e ∧ e.frozen = true ∧
      ∃ symbol ∈ e.symbols, symbol.kernelObject = object ∧ symbol.kernel = kernel
  thawed : ∀ h e, s.heldExecutable? h = some e → e.frozen = false →
    ∀ symbol ∈ e.symbols, symbol.kernelObject = 0
  numbered : ∀ h e, s.heldExecutable? h = some e → e.frozen = true →
    ∀ symbol ∈ e.symbols, symbol.kernelObject ≠ 0
  apart : ∀ h e k f, s.heldExecutable? h = some e → e.frozen = true →
    s.heldExecutable? k = some f → ∀ (i j : Nat) (symbol other : Symbol),
      e.symbols[i]? = some symbol → f.symbols[j]? = some other →
      symbol.kernelObject = other.kernelObject → h = k ∧ i = j
  zero : s.kernels.find? 0 = none
  destroyed : ∀ h e, s.heldExecutable? h = some e → s.executables.get? h = none →
    ∀ symbol ∈ e.symbols, s.kernels.find? symbol.kernelObject = none
  runs : ∀ q p deeds after index l, s.Move q p deeds after → .ran index l ∈ deeds →
    ∃ h e, s.executables.get? h = some e ∧ e.frozen = true ∧
      ∃ symbol ∈ e.symbols,
        symbol.kernelObject = (q.ring.read index).dispatch.kernelObject ∧ symbol.kernel = l.kernel

/-- What stays of code whatever happens. Executables last, and a number is never given again. -/
structure CodeLasts (s t : Session) : Prop where
  executables : ∀ h e, s.heldExecutable? h = some e →
    ∃ e', t.heldExecutable? h = some e' ∧ e.Lasts e'
  reserved : ∀ h e k f, s.heldExecutable? h = some e → e.frozen = true →
    t.heldExecutable? k = some f → ∀ (i j : Nat) (symbol other : Symbol),
      e.symbols[i]? = some symbol → f.symbols[j]? = some other →
      symbol.kernelObject = other.kernelObject → h = k ∧ i = j
  destroyed : ∀ h e, s.heldExecutable? h = some e → s.executables.get? h = none →
    ∀ symbol ∈ e.symbols, t.kernels.find? symbol.kernelObject = none

theorem numbered_ofConfig (c : Config) : (ofConfig c).code.Numbered 0 := by
  have none : ∀ h e, (ofConfig c).code.executables.held? h ≠ some e := fun h e held => by
    cases (Directory.held?_empty h).symm.trans held
  refine ⟨rfl, fun h e held => (none h e held).elim, ?_, ?_, fun entry => ?_⟩
  · rintro h i symbol ⟨e, held, -⟩
    exact (none h e held).elim
  · rintro h i symbol k j other ⟨e, held, -⟩
    exact (none h e held).elim
  · constructor
    · intro listed
      cases listed
    · rintro ⟨h, e, live, -⟩
      exact (none h e (Directory.held?_of_get? live)).elim

theorem CodeRun.numbered (run : CodeRun events s t) (reachable : s.Reachable)
    (inv : s.code.Numbered n) (few : n + frozenTotal events < 2 ^ 57) :
    t.code.Numbered (n + frozenTotal events) := by
  induction run with
  | refl s => exact inv
  | rehost _ _ ih => exact ih reachable inv few
  | step before step ih =>
    rw [frozenTotal_append, ← Nat.add_assoc] at few ⊢
    have middle := before.reachable reachable
    exact (ih reachable inv (by omega)).change middle.executables (step.code middle.wellFormed) few

/-- Along a run executables last, and those that were taken out stay out. -/
theorem CodeRun.lasts (run : CodeRun events s t) (reachable : s.Reachable) {h : Handle}
    {e : Executable} (held : s.heldExecutable? h = some e) :
    (∃ e', t.heldExecutable? h = some e' ∧ e.Lasts e') ∧
      (s.executables.get? h = none → t.executables.get? h = none) := by
  induction run with
  | refl s => exact ⟨⟨e, held, .refl e⟩, id⟩
  | rehost _ _ ih => exact ih reachable held
  | step before step ih =>
    obtain ⟨⟨middle, held', lasts⟩, gone⟩ := ih reachable held
    have reached := before.reachable reachable
    obtain ⟨⟨e', held'', lasts'⟩, gone'⟩ :=
      (step.code reached.wellFormed).lasts reached.executables held'
    exact ⟨⟨e', held'', lasts.trans lasts'⟩, gone' ∘ gone⟩

theorem tableMirrors (inv : s.code.Numbered n) (few : n < 2 ^ 57) : s.TableMirrors where
  reported h symbol := Reports.mem
  resolves_iff object kernel := inv.find?_iff
  thawed := inv.thawed
  numbered h e held frozen symbol listed := by
    obtain ⟨i, place⟩ := List.mem_iff_getElem?.mp listed
    exact inv.ne_zero few ⟨e, held, frozen, place⟩
  apart h e k f held frozen held' i j symbol other place place' same :=
    inv.apart_held few ⟨e, held, frozen, place⟩ held' place' same
  zero := inv.find?_zero few
  destroyed h e held gone symbol listed := inv.find?_of_gone few held gone listed
  runs q p deeds after index l move ran := by
    obtain ⟨a, -, planned⟩ := (move.launches ran).planned
    exact inv.find?_iff.mp (KernelDispatch.find?_of_plan planned)

/-- What is numbered later has other numbers than what was numbered before. -/
theorem CodeRun.codeLasts (run : CodeRun events s t) (reachable : s.Reachable)
    (before : s.TableMirrors) (after : t.TableMirrors) : s.CodeLasts t where
  executables h e held := (run.lasts reachable held).1
  reserved h e k f held frozen held' := by
    obtain ⟨⟨e', held'', lasts⟩, -⟩ := run.lasts reachable held
    obtain rfl := lasts.frozen frozen
    exact after.apart h _ k f held'' frozen held'
  destroyed h e held gone symbol listed := by
    obtain ⟨⟨e', held', lasts⟩, out⟩ := run.lasts reachable held
    cases frozen : e.frozen with
    | false =>
      rw [before.thawed h e held frozen symbol listed]
      exact after.zero
    | true =>
      obtain rfl := lasts.frozen frozen
      exact after.destroyed h _ held' (out gone) symbol listed

/-- Along every run in which fewer than `2 ^ 57` kernels are frozen the kernel table mirrors the
live frozen executables, and whatever happens later leaves the numbers that were given. -/
theorem CodeRun.table_mirrors {c : Config} {start : Session}
    (opened : openConfig c = .ok start) (run : CodeRun events start s)
    (later : CodeRun more s t) (few : frozenTotal (events ++ more) < 2 ^ 57) :
    s.TableMirrors ∧ s.CodeLasts t := by
  have reachable := Reachable.opened opened
  have first : start.code.Numbered 0 := by
    rw [openConfig_eq_ok opened]
    exact numbered_ofConfig c
  rw [frozenTotal_append] at few
  have now := run.numbered reachable first (by omega)
  have afterwards := later.numbered (run.reachable reachable) now (by omega)
  have mirrors := tableMirrors now (by omega)
  have mirrored := tableMirrors afterwards (by omega)
  exact ⟨mirrors, later.codeLasts (run.reachable reachable) mirrors mirrored⟩

/-- A kernel that is loaded, frozen and destroyed. -/
theorem CodeRun.table_mirrors_one : ∃ s t events more,
    CodeRun events (.ofConfig .default) s ∧ CodeRun more s t ∧ frozenTotal (events ++ more) = 1 ∧
      (s.kernels.find? 0x1000).map (·.name) = some "noop" ∧ (t.kernels.find? 0x1000).isNone ∧
      s.TableMirrors ∧ s.CodeLasts t := by
  have created := (CodeRun.refl (.ofConfig .default)).step (.lasting (o := .createExecutable)
    ⟨by decide, by decide, by decide⟩ ⟨nofun, nofun⟩)
  have loaded := created.step
    (.lasting (o := .loadCode (.ofParts 0 1) (.ofParts 1 1)
      ⟨"aql-sim", [.ofEntry "noop" fun _ => .done ()]⟩)
      ⟨by decide, by decide, by decide⟩ ⟨nofun, nofun⟩)
  have frozen := loaded.step (.lasting (o := .freezeExecutable (.ofParts 0 1))
    ⟨by decide, by decide, by decide⟩ ⟨nofun, nofun⟩)
  have destroyed (s : Session) (room : s.HasRoom) :
      CodeRun [] s ((Operation.destroyExecutable (.ofParts 0 1)).perform s) :=
    (CodeRun.refl s).step
      (.lasting (o := .destroyExecutable (.ofParts 0 1)) room ⟨nofun, nofun⟩)
  have mirrors := table_mirrors (c := .default) rfl frozen
    (destroyed _ ⟨by decide, by decide, by decide⟩) (by decide)
  exact ⟨_, _, _, _, frozen, destroyed _ ⟨by decide, by decide, by decide⟩, rfl, rfl, rfl,
    mirrors.1, mirrors.2⟩

end Session

end Accelerator
