import Accelerator.Proofs.Json.Parsing
import Accelerator.Proofs.Text.Masks
import Accelerator.Topology.Codec

/-!
# Values are taken out of the trees they were written as

For each kind of value that configurations are made of, taking it out of its tree gives the value
again. A record is written as an object whose members have distinct names; each of its fields is
then found under its name.

## Distinct names

A member is found by its name, and an object in which a name stands twice is refused. So what has to
be shown of each kind of record is that its names are distinct, and that each member is read back on
its own.

## Main results

* `Json.uint16?_ofNat`, `Json.uint32?_ofUInt32`, `Json.uint64?_ofUInt64`, `Json.text?_ofString`,
  `Json.member?_ofMember`, `Json.list?_map`, `Json.triple?_map`: plain values and lists of them.
* `Json.record?_ofMembers`: the fields of a record.
* `Json.fits_ofUInt64`: words of 64 bits can be held as values.
-/

namespace Accelerator

namespace Json

/-! ### Plain values -/

theorem Number.natural?_ofNat (n : Nat) : (Number.ofNat n).natural? = some n := by
  simp [Number.natural?, Number.ofNat, Numeral.ofDigits?_toDigits]

theorem natural?_ofNat {n largest : Nat} (h : n ≤ largest) :
    (ofNat n).natural? largest = some n := by
  simp [ofNat, natural?, Number.natural?_ofNat, h]

theorem uint16?_ofNat (n : UInt16) : (ofNat n.toNat).uint16? = some n := by
  rw [uint16?, natural?_ofNat (Nat.le_sub_one_of_lt n.toNat_lt_size)]
  simp

theorem uint32?_ofUInt32 (n : UInt32) : (ofUInt32 n).uint32? = some n := by
  rw [uint32?, ofUInt32, natural?_ofNat (Nat.le_sub_one_of_lt n.toNat_lt_size)]
  simp

theorem uint64?_ofUInt64 (n : UInt64) : (ofUInt64 n).uint64? = some n := by
  rw [uint64?, ofUInt64, natural?_ofNat (Nat.le_sub_one_of_lt n.toNat_lt_size)]
  simp

theorem text?_ofString (s : String) : (ofString s).text? = some s := rfl

theorem member?_ofMember {α : Type} [Enumerated α] (held : Bool) (a : α) :
    (ofMember a).member? held = some a :=
  Enumerated.ofName?_name a

theorem list?_map {α : Type} {item? : Json → Option α} {write : α → Json}
    (h : ∀ a, item? (write a) = some a) (as : List α) :
    (array (as.map write)).list? item? = some as := by
  rw [list?, List.mapM_map]
  induction as with
  | nil => rfl
  | cons a as ih => simp [h a, ih]

theorem triple?_map {α : Type} {item? : Json → Option α} {write : α → Json}
    (h : ∀ a, item? (write a) = some a) (d : Dim3 α) :
    (array (d.toList.map write)).triple? item? = some (d.x, d.y, d.z) := by
  simp [triple?, Dim3.toList, h]

/-! ### Records -/

/-- A record is read from an object with distinct names: each field is the member of its name. -/
theorem record?_ofMembers {members : List (String × Json)} (names : List String)
    (distinct : (members.map Prod.fst).Nodup) :
    ∃ field, (ofMembers members).record? names = some field ∧
      ∀ m ∈ members, field m.1 = some m.2 := by
  have spelled : (members.map fun m => (some m.1, m.2)).any (fun m => m.1.isNone) = false := by
    simp
  have once : names.any (fun name => 1 < ((members.map fun m => (some m.1, m.2)).filter
      fun m => m.1 == some name).length) = false := by
    rw [List.any_eq_false]
    intro name _
    have count : ((members.map fun m => (some m.1, m.2)).filter fun m => m.1 == some name).length
        = (members.map Prod.fst).count name := by
      rw [List.count, List.countP_map, List.countP_eq_length_filter, List.filter_map,
        List.length_map]
      rfl
    have once := List.nodup_iff_count_le_one.1 distinct name
    simp only [count, decide_eq_true_eq]
    omega
  refine ⟨_, by simp only [ofMembers, record?, spelled, once]; rfl, fun m hm => ?_⟩
  have found : (members.map fun m => (some m.1, m.2)).find? (fun n => n.1 == some m.1)
      = some (some m.1, m.2) := by
    refine find?_eq_some_of_unique (List.mem_map.2 ⟨m, hm, rfl⟩) (by simp) fun n hn same => ?_
    obtain ⟨k, hk, rfl⟩ := List.mem_map.1 hn
    rw [List.inj_on_of_nodup_map distinct hk hm (by simpa using same)]
  rw [found]
  rfl

/-! ### Trees that can be held -/

/-- A number of at most twenty digits is far below the largest. -/
theorem Number.isFinite_ofNat {n : Nat} (h : n < 10 ^ 20) : (Number.ofNat n).isFinite = true := by
  have few : (Nat.toDigits 10 n).length ≤ 20 := Nat.toDigits_length 10 n 20 (by decide) h
  simp only [isFinite, ofNat, List.append_nil, Option.elim_none, List.length_nil,
    Numeral.ofDigits?_toDigits (by decide : 1 < 10) (by decide), Option.getD_some]
  split
  · rfl
  · rw [if_neg (by omega), if_pos (by omega)]

theorem fits_ofUInt64 (depth : Nat) (n : UInt64) : (ofUInt64 n).fits depth = true := by
  have few : n.toNat < 10 ^ 20 := n.toNat_lt_size.trans (by norm_num [UInt64.size])
  cases depth <;> exact Number.isFinite_ofNat few

theorem fits_ofString (depth : Nat) (s : String) : (ofString s).fits depth = true := by
  cases depth <;> rfl

theorem fits_ofMember {α : Type} [Enumerated α] (depth : Nat) (a : α) :
    (ofMember a).fits depth = true :=
  fits_ofString depth _

theorem fits_bool (depth : Nat) (b : Bool) : (bool b).fits depth = true := by
  cases depth <;> rfl

/-! ### Legible values -/

theorem legible_ofMember {α : Type} [Enumerated α] (a : α) : (ofMember a).Legible :=
  legible_ofString _

theorem legible_ofUInt32 (n : UInt32) : (ofUInt32 n).Legible :=
  legible_ofNat _

theorem legible_ofUInt64 (n : UInt64) : (ofUInt64 n).Legible :=
  legible_ofNat _

theorem legible_map {α : Type} {write : α → Json} (h : ∀ a, (write a).Legible) (as : List α) :
    (array (as.map write)).Legible := by
  refine legible_array fun item hitem => ?_
  obtain ⟨a, -, rfl⟩ := List.mem_map.1 hitem
  exact h a

end Json

end Accelerator
