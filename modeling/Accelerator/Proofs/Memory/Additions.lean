import Accelerator.Proofs.Accounts.Copies
import Accelerator.Proofs.Grid.Schedules

/-!
# Additions to words

Work-items add to words of global memory at once, and get to know what was there before. Words stand
at multiples of their width, so two of them share all of their bytes or none: an addition changes
one word, and a carry out of its highest byte is lost. So additions do not get in each other's way.
Whatever their order, each word ends with the sum of all that was added to it, and in between an
addition sees the sum of those before it. One that is refused, since its address is not a multiple
of the width or may not be accessed, adds nothing.

What a work-item does may depend on what its additions return, so which additions a launch makes can
depend on the order of its work-items. Whatever they are, memory is as if they had been made one
after another, in any order, as long as the kernel does not write to memory in another way.

## Main definitions

* `Addition`, `Memory.addAll`: additions, and making several of them in a given order.
* `Memory.Addable`, `Memory.wordAt`: the words that can be added to, and what they hold.
* `Addition.total`: all that additions add at an address.
* `Program.OnlyAdds`, `Program.calls`, `Launch.calls`: programs that change memory by additions
  alone, and the additions that are made in a run, with what they return.

## Main results

* `Memory.addsUp_addAll`: what additions return, and what they leave in memory.
* `Memory.AddsUp.agreesOn_of_perm`: the order of additions does not matter for memory.
* `Program.makes_calls`, `Launch.makes_calls`: programs and launches that only add.
* `Memory.agreesOn_of_calls_perm`: launches that make the same additions.
* `Memory.additions_accumulate`: additions in whatever order, by themselves and in launches.
-/

namespace Accelerator

/-- An amount to be added to the word at an address. -/
structure Addition where
  address : UInt64
  amount : Nat
  deriving DecidableEq, Repr, Inhabited

/-- All that additions add at an address. -/
def Addition.total (address : UInt64) (calls : List Addition) : Nat :=
  ((calls.filter fun c => c.address = address).map (·.amount)).sum

namespace Addition

variable {address : UInt64} {calls calls' : List Addition}

theorem total_append (address : UInt64) (first second : List Addition) :
    total address (first ++ second) = total address first + total address second := by
  rw [total, List.filter_append, List.map_append, List.sum_append, total, total]

theorem total_singleton (address : UInt64) (c : Addition) :
    total address [c] = if c.address = address then c.amount else 0 := by
  by_cases here : c.address = address <;> simp [total, here]

theorem total_eq_of_perm (perm : calls'.Perm calls) : total address calls' = total address calls :=
  ((perm.filter _).map _).sum_nat

end Addition

namespace Memory

/-! ### Making additions -/

/-- Makes an addition: what the word was before, unless the addition is refused, and what memory is
then. -/
def add (width : Nat) (c : Addition) (m : Memory) : Option Nat × Memory :=
  match m.fetchAdd? width c.address c.amount with
  | some (previous, n) => (some previous, n)
  | none => (none, m)

/-- Makes additions one after another: what each of them returns, and what memory is then. -/
def addAll (width : Nat) : List Addition → Memory → List (Option Nat) × Memory
  | [], m => ([], m)
  | c :: rest, m =>
    let (previous, n) := add width c m
    let (others, k) := addAll width rest n
    (previous :: others, k)

theorem addAll_cons (width : Nat) (c : Addition) (rest : List Addition) (m : Memory) :
    addAll width (c :: rest) m = ((add width c m).1 :: (addAll width rest (add width c m).2).1,
      (addAll width rest (add width c m).2).2) :=
  rfl

theorem addAll_append (width : Nat) (first second : List Addition) (m : Memory) :
    addAll width (first ++ second) m =
      ((addAll width first m).1 ++ (addAll width second (addAll width first m).2).1,
        (addAll width second (addAll width first m).2).2) := by
  induction first generalizing m with
  | nil => rfl
  | cons c rest ih => rw [List.cons_append, addAll_cons, addAll_cons, ih, List.cons_append]

theorem length_addAll (width : Nat) (calls : List Addition) (m : Memory) :
    (addAll width calls m).1.length = calls.length := by
  induction calls generalizing m with
  | nil => rfl
  | cons c rest ih => rw [addAll_cons, List.length_cons, List.length_cons, ih]

/-! ### Words -/

/-- What a word of `width` bytes holds. -/
def wordAt (m : Memory) (width : Nat) (address : UInt64) : Nat :=
  Word.ofBytes (m.contents.read address width)

/-- A word that can be added to: it stands at a multiple of its width and may be accessed. -/
structure Addable (m : Memory) (width : Nat) (address : UInt64) : Prop where
  aligned : width ∣ address.toNat
  accessible : m.isAccessible address (.ofNat width) = true

/-- The addresses of the bytes of a word. -/
def wordSpan (width : Nat) (address : UInt64) : Set Nat :=
  Set.Ico address.toNat (address.toNat + width)

variable {m n k : Memory} {width : Nat} {address other : UInt64} {c : Addition}
variable {calls : List Addition}

/-- What may be accessed ends before the last address. -/
theorem ends_of_isAccessible {len : UInt64} (positive : len ≠ 0)
    (allowed : m.isAccessible address len = true) : address.toNat + len.toNat < 2 ^ 64 := by
  have within : ∃ start size, rangeWithin start size address len = true := by
    rw [isAccessible] at allowed
    split at allowed
    · cases allowed
    split at allowed
    · cases allowed
    rcases Bool.or_eq_true_iff.mp allowed with allocated | registered
    · split at allocated
      · exact ⟨_, _, allocated⟩
      · cases allocated
    · obtain ⟨entry, -, inside⟩ := List.any_eq_true.mp registered
      exact ⟨_, _, (Bool.and_eq_true_iff.mp inside).2⟩
  obtain ⟨start, size, inside⟩ := within
  obtain ⟨fits, sub⟩ := (rangeWithin_iff positive).mp inside
  have := ((span_subset_span positive).mp sub).2
  omega

theorem Refilled.addable_iff (refilled : m.Refilled n) :
    n.Addable width address ↔ m.Addable width address := by
  obtain ⟨contents, rfl⟩ := refilled
  exact ⟨fun h => ⟨h.aligned, h.accessible⟩, fun h => ⟨h.aligned, h.accessible⟩⟩

theorem wordAt_lt (m : Memory) (width : Nat) (address : UInt64) :
    m.wordAt width address < 256 ^ width := by
  have small := Word.ofBytes_lt (m.contents.read address width)
  rwa [Contents.length_read] at small

theorem refilled_add (width : Nat) (c : Addition) (m : Memory) : m.Refilled (add width c m).2 := by
  rw [add, fetchAdd?]
  cases m.alignedWord? width c.address with
  | some previous => exact ⟨_, rfl⟩
  | none => exact .refl m

/-- An addition to anything that cannot be added to is refused and changes nothing. -/
theorem add_of_not_addable (refused : ¬ m.Addable width c.address) : add width c m = (none, m) := by
  have word : m.alignedWord? width c.address = none := by
    rw [alignedWord?]
    split
    case isTrue => rfl
    case isFalse aligned =>
      have inaccessible : ¬ m.isAccessible c.address (.ofNat width) = true := fun allowed =>
        refused ⟨Nat.dvd_of_mod_eq_zero (not_not.mp aligned), allowed⟩
      rw [readBytes?, if_neg inaccessible, Option.map_none]
  rw [add, fetchAdd?, word]

/-- Two words that stand at multiples of their width are the same or share no byte. -/
theorem disjoint_wordSpan (aligned : width ∣ address.toNat) (aligned' : width ∣ other.toNat)
    (distinct : address ≠ other) : Disjoint (wordSpan width address) (wordSpan width other) := by
  obtain ⟨i, hi⟩ := aligned
  obtain ⟨j, hj⟩ := aligned'
  have apart : i ≠ j := by
    rintro rfl
    exact distinct (UInt64.toNat_inj.mp (hi.trans hj.symm))
  rw [wordSpan, wordSpan, Set.Ico_disjoint_Ico, hi, hj]
  rcases Nat.lt_or_gt_of_ne apart with before | after
  · have : width * (i + 1) ≤ width * j := Nat.mul_le_mul_left _ before
    rw [Nat.mul_succ] at this
    omega
  · have : width * (j + 1) ≤ width * i := Nat.mul_le_mul_left _ after
    rw [Nat.mul_succ] at this
    omega

/-- Words that hold the same have the same bytes. -/
theorem byteAt_of_wordAt (same : n.wordAt width address = m.wordAt width address) {x : UInt64}
    (inside : x ∈ Contents.addresses address width) :
    n.contents.byteAt x = m.contents.byteAt x := by
  have bytes : n.contents.read address width = m.contents.read address width := by
    have inverse := fun c : Contents =>
      Word.bytes_ofBytes_mod (Contents.length_read c address width)
    rw [← inverse n.contents, ← inverse m.contents]
    exact congrArg (fun word => Word.bytes width (word % 256 ^ width)) same
  rw [Contents.read_eq_map, Contents.read_eq_map] at bytes
  exact List.map_inj_left.mp bytes x inside

theorem wordAt_congr (same : ∀ x ∈ Contents.addresses address width,
    n.contents.byteAt x = m.contents.byteAt x) :
    n.wordAt width address = m.wordAt width address := by
  rw [wordAt, wordAt, Contents.read_eq_map, Contents.read_eq_map, List.map_congr_left same]

section Width

variable (small : width < 2 ^ 64)
include small

/-- An addition returns what the word was and changes its bytes. -/
theorem add_of_addable (addable : m.Addable width c.address) :
    add width c m = (some (m.wordAt width c.address),
      m.overwrite c.address (Word.bytes width (m.wordAt width c.address + c.amount))) := by
  have aligned : ¬ c.address.toNat % width ≠ 0 :=
    not_not.mpr (Nat.mod_eq_zero_of_dvd addable.aligned)
  have word : m.alignedWord? width c.address = some (m.wordAt width c.address) := by
    rw [alignedWord?, if_neg aligned, readBytes?, if_pos addable.accessible,
      UInt64.toNat_ofNat_of_lt' small, Option.map_some]
    rfl
  rw [add, fetchAdd?, word]

/-- A word holds what it was overwritten with, without the carry. -/
theorem wordAt_overwrite_self (value : Nat) :
    (m.overwrite address (Word.bytes width value)).wordAt width address =
      value % 256 ^ width := by
  have written := Contents.read_write_self (Word.bytes width value) m.contents address
    (by rw [Word.length_bytes]; omega)
  rw [Word.length_bytes] at written
  rw [wordAt, overwrite, written, Word.ofBytes_bytes]

variable (positive : 0 < width)
include positive

theorem Addable.ends (addable : m.Addable width address) : address.toNat + width < 2 ^ 64 := by
  have size : (UInt64.ofNat width).toNat = width := UInt64.toNat_ofNat_of_lt' small
  have nonzero : UInt64.ofNat width ≠ 0 := by
    intro zero
    rw [zero, UInt64.toNat_zero] at size
    omega
  have ends := ends_of_isAccessible nonzero addable.accessible
  rwa [size] at ends

/-- The bytes of a word are those of its addresses. -/
theorem Addable.mem_addresses (addable : m.Addable width address) {x : UInt64} :
    x ∈ Contents.addresses address width ↔ x.toNat ∈ wordSpan width address := by
  have ends := addable.ends small positive
  rw [Contents.addresses, List.mem_map, wordSpan, Set.mem_Ico]
  constructor
  · rintro ⟨i, below, rfl⟩
    have below := List.mem_range.mp below
    rw [Word.toNat_add_ofNat (by omega)]
    omega
  · intro inside
    refine ⟨x.toNat - address.toNat, List.mem_range.mpr (by omega), ?_⟩
    rw [← UInt64.toNat_inj, Word.toNat_add_ofNat (by omega)]
    omega

/-- An addition that is not refused changes bytes of its word only. -/
theorem byteAt_add {x : UInt64}
    (outside : m.Addable width c.address → x.toNat ∉ wordSpan width c.address) :
    (add width c m).2.contents.byteAt x = m.contents.byteAt x := by
  by_cases addable : m.Addable width c.address
  · rw [add_of_addable small addable]
    refine Contents.byteAt_write _ _ _ fun inside => outside addable ?_
    rw [Word.length_bytes] at inside
    exact (addable.mem_addresses small positive).mp inside
  · rw [add_of_not_addable addable]

/-- An addition changes its own word and no other. -/
theorem wordAt_add (addable : m.Addable width address) :
    (add width c m).2.wordAt width address =
      if c.address = address then (m.wordAt width address + c.amount) % 256 ^ width
      else m.wordAt width address := by
  split
  case isTrue same =>
    subst same
    rw [add_of_addable small addable]
    exact wordAt_overwrite_self small _
  case isFalse distinct =>
    refine wordAt_congr fun x inside => byteAt_add small positive fun addable' within => ?_
    have apart := disjoint_wordSpan addable'.aligned addable.aligned distinct
    exact Set.disjoint_left.mp apart within ((addable.mem_addresses small positive).mp inside)

end Width

/-! ### What additions amount to -/

/-- What several additions amount to that are made in a given order: what each of them returns, and
what they leave in memory. -/
structure AddsUp (m : Memory) (width : Nat) (calls : List Addition) (results : List (Option Nat))
    (n : Memory) : Prop where
  /-- What may be accessed is the same. -/
  refilled : m.Refilled n
  /-- A word holds what it did and all that was added to it, up to the carry. -/
  word : ∀ address, m.Addable width address → n.wordAt width address =
    (m.wordAt width address + Addition.total address calls) % 256 ^ width
  /-- Bytes of no word that was added to are as before. -/
  elsewhere : ∀ x : UInt64, (∀ c ∈ calls, m.Addable width c.address →
    x.toNat ∉ wordSpan width c.address) → n.contents.byteAt x = m.contents.byteAt x
  /-- An addition sees what the word held and all that was added to it before. -/
  returned : ∀ (i : Nat) (c : Addition), calls[i]? = some c → m.Addable width c.address →
    results[i]? = some (some
      ((m.wordAt width c.address + Addition.total c.address (calls.take i)) % 256 ^ width))
  /-- All other additions are refused. -/
  refused : ∀ (i : Nat) (c : Addition), calls[i]? = some c → ¬ m.Addable width c.address →
    results[i]? = some none

variable {result : Option Nat} {results : List (Option Nat)}

theorem addsUp_nil (m : Memory) (width : Nat) : m.AddsUp width [] [] m where
  refilled := .refl m
  word address _ := (Nat.mod_eq_of_lt (wordAt_lt m width address)).symm
  elsewhere _ _ := rfl
  returned _ _ listed := by cases listed
  refused _ _ listed := by cases listed

theorem eq_of_getElem?_singleton {α : Type} {x y : α} {i : Nat} (listed : [x][i]? = some y) :
    i = 0 ∧ y = x := by
  obtain ⟨below, rfl⟩ := List.getElem?_eq_some_iff.mp listed
  obtain rfl : i = 0 := Nat.lt_one_iff.mp below
  exact ⟨rfl, rfl⟩

/-- What one addition amounts to. -/
theorem addsUp_add (positive : 0 < width) (small : width < 2 ^ 64) (c : Addition) (m : Memory) :
    m.AddsUp width [c] [(add width c m).1] (add width c m).2 where
  refilled := refilled_add width c m
  word address addable := by
    rw [wordAt_add small positive addable, Addition.total_singleton]
    split
    case isTrue => rfl
    case isFalse => exact (Nat.mod_eq_of_lt (wordAt_lt m width address)).symm
  elsewhere x outside := byteAt_add small positive (outside c (.head _))
  returned i c' listed addable := by
    obtain ⟨rfl, rfl⟩ := eq_of_getElem?_singleton listed
    rw [add_of_addable small addable]
    show some (some _) = some (some ((_ + 0) % _))
    rw [Nat.add_zero, Nat.mod_eq_of_lt (wordAt_lt m width _)]
  refused i c' listed refused := by
    obtain ⟨rfl, rfl⟩ := eq_of_getElem?_singleton listed
    rw [add_of_not_addable refused]
    rfl

/-- Additions that are made after another one. -/
theorem AddsUp.cons (first : m.AddsUp width [c] [result] n)
    (rest : n.AddsUp width calls results k) :
    m.AddsUp width (c :: calls) (result :: results) k := by
  have allowed : ∀ address, n.Addable width address ↔ m.Addable width address :=
    fun _ => first.refilled.addable_iff
  have sum : ∀ address, m.Addable width address → ∀ amount,
      (n.wordAt width address + amount) % 256 ^ width =
        (m.wordAt width address + (Addition.total address [c] + amount)) % 256 ^ width := by
    intro address addable amount
    rw [first.word address addable, Nat.mod_add_mod, Nat.add_assoc]
  refine ⟨first.refilled.trans rest.refilled, ?_, ?_, ?_, ?_⟩
  · intro address addable
    rw [rest.word address ((allowed address).mpr addable), sum address addable,
      ← Addition.total_append, List.singleton_append]
  · intro x outside
    refine (rest.elsewhere x fun c' listed addable => ?_).trans
      (first.elsewhere x fun c' listed => ?_)
    · exact outside c' (.tail _ listed) ((allowed _).mp addable)
    · exact outside c' (List.mem_singleton.mp listed ▸ .head _)
  · intro i c' listed addable
    cases i with
    | zero => exact first.returned 0 c' listed addable
    | succ i =>
      have split := Addition.total_append c'.address [c] (calls.take i)
      rw [List.singleton_append] at split
      rw [List.take_succ_cons, split, ← sum c'.address addable]
      exact rest.returned i c' listed ((allowed _).mpr addable)
  · intro i c' listed refused
    cases i with
    | zero => exact first.refused 0 c' listed refused
    | succ i => exact rest.refused i c' listed fun addable => refused ((allowed _).mp addable)

/-- What additions amount to. -/
theorem addsUp_addAll (positive : 0 < width) (small : width < 2 ^ 64) (calls : List Addition)
    (m : Memory) : m.AddsUp width calls (addAll width calls m).1 (addAll width calls m).2 := by
  induction calls generalizing m with
  | nil => exact addsUp_nil m width
  | cons c rest ih => exact (addsUp_add positive small c m).cons (ih _)

/-! ### The order of additions -/

section Order

variable {calls' : List Addition} {results' : List (Option Nat)} {n' : Memory}
variable (positive : 0 < width) (small : width < 2 ^ 64)
include positive small

/-- Additions leave the same memory in whatever order they are made. -/
theorem AddsUp.agreesOn_of_perm (one : m.AddsUp width calls results n)
    (other : m.AddsUp width calls' results' n') (perm : calls'.Perm calls) :
    n.AgreesOn Set.univ n' := by
  refine ⟨one.refilled.symm.trans other.refilled, fun x _ => ?_⟩
  by_cases touched : ∃ c ∈ calls, m.Addable width c.address ∧ x.toNat ∈ wordSpan width c.address
  · obtain ⟨c, -, addable, inside⟩ := touched
    refine byteAt_of_wordAt ?_ ((addable.mem_addresses small positive).mpr inside)
    rw [one.word _ addable, other.word _ addable, Addition.total_eq_of_perm perm]
  · have outside : ∀ c ∈ calls, m.Addable width c.address →
        x.toNat ∉ wordSpan width c.address := by
      intro c listed addable inside
      exact touched ⟨c, listed, addable, inside⟩
    rw [one.elsewhere x outside,
      other.elsewhere x fun c listed => outside c (perm.mem_iff.mp listed)]

/-- An addition that is refused might as well not be made. -/
theorem addAll_of_not_addable (before after : List Addition)
    (refused : ¬ m.Addable width c.address) :
    (addAll width (before ++ c :: after) m).2 = (addAll width (before ++ after) m).2 := by
  have still : ¬ (addAll width before m).2.Addable width c.address :=
    (addsUp_addAll positive small before m).refilled.addable_iff.not.mpr refused
  rw [addAll_append, addAll_append, addAll_cons, add_of_not_addable still]

end Order

/-- Additions with what they return are made one after another and leave a memory. -/
def Makes (m : Memory) (width : Nat) (made : List (Addition × Option Nat)) (n : Memory) : Prop :=
  addAll width (made.map Prod.fst) m = (made.map Prod.snd, n)

theorem makes_add (width : Nat) (c : Addition) (m : Memory) :
    m.Makes width [(c, (add width c m).1)] (add width c m).2 :=
  rfl

theorem Makes.append {first second : List (Addition × Option Nat)} (one : m.Makes width first n)
    (other : n.Makes width second k) : m.Makes width (first ++ second) k := by
  rw [Makes] at one other ⊢
  rw [List.map_append, addAll_append, one, other, List.map_append]

/-- The same additions leave the same memory in whatever order they are made. -/
theorem Makes.agreesOn_of_perm {made made' : List (Addition × Option Nat)} {n' : Memory}
    (positive : 0 < width) (small : width < 2 ^ 64) (one : m.Makes width made n)
    (other : m.Makes width made' n') (perm : (made'.map Prod.fst).Perm (made.map Prod.fst)) :
    n.AgreesOn Set.univ n' := by
  have sums := addsUp_addAll positive small (made.map Prod.fst) m
  have sums' := addsUp_addAll positive small (made'.map Prod.fst) m
  rw [show addAll width (made.map Prod.fst) m = _ from one] at sums
  rw [show addAll width (made'.map Prod.fst) m = _ from other] at sums'
  exact sums.agreesOn_of_perm positive small sums' perm

end Memory

/-! ### Programs that only add -/

namespace Program

variable {α : Type}

/-- The program changes global memory by additions to words of `width` bytes alone. -/
def OnlyAdds (width : Nat) : Program α → Prop
  | done _ | panic => True
  | load _ _ next => ∀ bs, (next bs).OnlyAdds width
  | store .. => False
  | fetchAdd width' _ _ next => width' = width ∧ ∀ previous, (next previous).OnlyAdds width
  | readScratch _ _ _ next => ∀ bs, (next bs).OnlyAdds width
  | writeScratch _ _ _ next => next.OnlyAdds width
  | report _ next => next.OnlyAdds width

/-- The additions that a program makes, each with what it returns. -/
def calls : Program α → Lane → List (Addition × Option Nat)
  | done _, _ | panic, _ => []
  | load address count next, l => (next (l.memory.readBytes? address (.ofNat count))).calls l
  | store address bytes next, l =>
    if l.memory.isAccessible address (.ofNat bytes.length) then
      (next true).calls (l.overwrite address bytes)
    else (next false).calls l
  | fetchAdd width address amount next, l =>
    match l.memory.alignedWord? width address with
    | some previous => (⟨address, amount⟩, some previous) ::
        (next (some previous)).calls (l.overwrite address (Word.bytes width (previous + amount)))
    | none => (⟨address, amount⟩, none) :: (next none).calls l
  | readScratch scratch offset count next, l =>
    match (l.scratch scratch).read? offset count with
    | some bs => (next bs).calls l
    | none => []
  | writeScratch scratch offset bytes next, l =>
    if offset + bytes.length ≤ (l.scratch scratch).size then
      next.calls (l.overwriteScratch scratch offset bytes)
    else []
  | report r next, l => next.calls { l with reports := r :: l.reports }

/-- A program that only adds leaves what its additions leave. -/
theorem makes_calls {width : Nat} {p : Program α} (only : p.OnlyAdds width) (l : Lane) :
    l.memory.Makes width (p.calls l) (p.run l).2.memory := by
  induction p generalizing l with
  | done | panic => rfl
  | load address count next ih => exact ih _ (only _) l
  | store => exact only.elim
  | fetchAdd width' address amount next ih =>
    obtain ⟨rfl, only⟩ := only
    have one := Memory.makes_add width' ⟨address, amount⟩ l.memory
    rw [Memory.add, Memory.fetchAdd?] at one
    rw [run, calls]
    cases found : l.memory.alignedWord? width' address with
    | some previous =>
      rw [found] at one
      exact one.append (ih _ (only _) (l.overwrite address _))
    | none =>
      rw [found] at one
      exact one.append (ih _ (only _) l)
  | readScratch scratch offset count next ih =>
    rw [run, calls]
    cases (l.scratch scratch).read? offset count with
    | some bs => exact ih bs (only bs) l
    | none => rfl
  | writeScratch scratch offset bytes next ih =>
    rw [run, calls]
    split
    · have same := ih only (l.overwriteScratch scratch offset bytes)
      rwa [Lane.memory_overwriteScratch] at same
    · rfl
  | report r next ih => exact ih only _

end Program

namespace Launch

variable {l : Launch} {width : Nat}

/-- The additions that work-items make, each with what it returns. -/
def itemCalls (l : Launch) (runs : List (WorkItem × Lane)) : List (Addition × Option Nat) :=
  runs.flatMap fun run => (l.kernel.entry run.1).calls run.2

/-- The additions that workgroups make which are run in a given order. -/
def calls (l : Launch) : List Nat → LaunchState → List (Addition × Option Nat)
  | [], _ => []
  | flat :: rest, state =>
    l.itemCalls (l.starts (state, .zero l.groupBytes) (l.items flat)) ++
      l.calls rest (l.runGroup state flat)

section OnlyAdds

variable (only : ∀ item, (l.kernel.entry item).OnlyAdds width)
include only

theorem makes_itemCalls (items : List WorkItem) (state : LaunchState × ScratchMemory) :
    state.1.memory.Makes width (l.itemCalls (l.starts state items))
      (items.foldl l.runItem state).1.memory := by
  induction items generalizing state with
  | nil => rfl
  | cons item rest ih =>
    rw [starts, List.foldl_cons]
    split
    case isTrue ended =>
      have same : l.runItem state item = state := if_pos ended
      rw [same, foldl_runItem_of_panicked ended]
      rfl
    case isFalse running =>
      have next := ih (l.runItem state item)
      rw [runItem_eq running] at next ⊢
      exact (Program.makes_calls (only item) (l.lane state)).append next

/-- A launch of a kernel that only adds leaves what its additions leave. -/
theorem makes_calls (order : List Nat) (state : LaunchState) :
    state.memory.Makes width (l.calls order state) (l.runGroups order state).memory := by
  induction order generalizing state with
  | nil => rfl
  | cons flat rest ih =>
    exact (makes_itemCalls only (l.items flat) (state, .zero l.groupBytes)).append (ih _)

end OnlyAdds

end Launch

namespace Memory

/-- Launches that make the same additions leave the same memory. -/
theorem agreesOn_of_calls_perm {width : Nat} (positive : 0 < width) (small : width < 2 ^ 64)
    {l : Launch} (only : ∀ item, (l.kernel.entry item).OnlyAdds width) {order order' : List Nat}
    {state state' : LaunchState} (same : state'.memory = state.memory)
    (perm : ((l.calls order' state').map Prod.fst).Perm ((l.calls order state).map Prod.fst)) :
    (l.runGroups order state).memory.AgreesOn Set.univ (l.runGroups order' state').memory := by
  have other := same ▸ Launch.makes_calls only order' state'
  exact (Launch.makes_calls only order state).agreesOn_of_perm positive small other perm

/-- **Additions accumulate.** Words of one width are added to, say of four bytes or of eight. In
whatever order additions are made, each returns what its word held and what was added to it before,
up to the carry. In the end each word holds what it did and all that was added to it, up to the
carry, and no other byte has changed, so memory is the same for every order. An addition to an
address that is not a multiple of the width or may not be accessed returns nothing, changes nothing,
and nothing else notices it. All additions of a launch whose kernel does not write to memory in
another way are such additions, whatever the order of its workgroups and whatever its work-items do
besides; so orders in which it makes the same additions leave the same memory. -/
theorem additions_accumulate {width : Nat} (positive : 0 < width) (small : width < 2 ^ 64)
    (m : Memory) :
    (∀ calls, (addAll width calls m).1.length = calls.length ∧
      m.AddsUp width calls (addAll width calls m).1 (addAll width calls m).2 ∧
      ∀ calls' : List Addition, calls'.Perm calls →
        (addAll width calls m).2.AgreesOn Set.univ (addAll width calls' m).2) ∧
    (∀ c : Addition, ¬ m.Addable width c.address → add width c m = (none, m) ∧
      ∀ before after, (addAll width (before ++ c :: after) m).2 =
        (addAll width (before ++ after) m).2) ∧
    ∀ (l : Launch) (order : List Nat) (state : LaunchState), state.memory = m →
      (∀ item, (l.kernel.entry item).OnlyAdds width) →
        m.Makes width (l.calls order state) (l.runGroups order state).memory ∧
        ∀ (order' : List Nat) (state' : LaunchState), state'.memory = m →
          ((l.calls order' state').map Prod.fst).Perm ((l.calls order state).map Prod.fst) →
            (l.runGroups order state).memory.AgreesOn Set.univ
              (l.runGroups order' state').memory := by
  have sums := fun calls => addsUp_addAll positive small calls m
  refine ⟨fun calls => ⟨length_addAll width calls m, sums calls, fun calls' perm => ?_⟩,
    fun c refused => ⟨add_of_not_addable refused, fun before after => ?_⟩, ?_⟩
  · exact (sums calls).agreesOn_of_perm positive small (sums calls') perm
  · exact addAll_of_not_addable positive small before after refused
  · rintro l order state rfl only
    exact ⟨Launch.makes_calls only order state, fun order' state' same perm =>
      agreesOn_of_calls_perm positive small only same perm⟩

/-- In a registered range of two words, one goes round and the other does not notice. -/
theorem additions_around : ∃ m : Memory, m.wordAt 4 0x1000 = 0 ∧ m.wordAt 4 0x1004 = 0 ∧
    let calls : List Addition := [⟨0x1000, 0xffffffff⟩, ⟨0x1002, 1⟩, ⟨0x1000, 2⟩]
    (addAll 4 calls m).1[1]? = some none ∧ (addAll 4 calls m).1[2]? = some (some 0xffffffff) ∧
      (addAll 4 calls m).2.wordAt 4 0x1000 = 1 ∧ (addAll 4 calls m).2.wordAt 4 0x1004 = 0 := by
  let m : Memory := { Memory.empty with registrations := [((0x1000, 8), 1)] }
  have zero : ∀ address, m.wordAt 4 address = 0 := fun address => by
    simp [wordAt, m, empty, Contents.read, Contents.byteAt, Contents.zero, List.range,
      List.range.loop, Word.ofBytes]
  have first : m.Addable 4 0x1000 := ⟨by decide, by decide⟩
  have second : m.Addable 4 0x1004 := ⟨by decide, by decide⟩
  have between : ¬ m.Addable 4 0x1002 := fun addable => absurd addable.aligned (by decide)
  have sums := ((additions_accumulate (show 0 < 4 by decide) (by decide) m).1
    [⟨0x1000, 0xffffffff⟩, ⟨0x1002, 1⟩, ⟨0x1000, 2⟩]).2.1
  refine ⟨m, zero _, zero _, sums.refused 1 _ rfl between, ?_, ?_, ?_⟩
  · rw [sums.returned 2 _ rfl first, zero]
    rfl
  · rw [sums.word _ first, zero]
    rfl
  · rw [sums.word _ second, zero]
    rfl

end Memory

end Accelerator
