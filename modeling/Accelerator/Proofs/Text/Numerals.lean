import Accelerator.Text.Numeral
import Mathlib.Data.Nat.Digits.Defs

/-!
# Numerals are read back

The digits of a number in a base up to sixteen are read as that number. Letters stand for the
digits from ten on, in lower case on writing and in either case on reading.

## All bases at once

Digits are told for any base up to sixteen, since decimal and hexadecimal numerals differ in nothing
that a proof would see. The induction takes off the last digit, as writing does, while reading goes
from the front; the two meet in `Nat.toDigits` of a quotient and a remainder.

## Main results

* `Numeral.ofDigits?_toDigits`, `Numeral.read?_toDigits`: reading inverts writing.
* `Numeral.exists_digitChar`: the characters of a numeral are digits of its base.
* `Numeral.eq_nil_of_toDigits_zero`: there is no needless zero in front.
-/

namespace Accelerator

namespace Numeral

variable {base : Nat}

/-- The characters of a numeral are digits. -/
theorem exists_digitChar {n : Nat} (h1 : 1 < base) {c : Char} (hc : c ∈ Nat.toDigits base n) :
    ∃ d < base, c = Nat.digitChar d := by
  induction n using Nat.strongRecOn with
  | ind n ih =>
    rcases Nat.lt_or_ge n base with h | h
    · rw [Nat.toDigits_of_lt_base h, List.mem_singleton] at hc
      exact ⟨n, h, hc⟩
    · rw [Nat.toDigits_of_base_le h1 h, List.mem_append, List.mem_singleton] at hc
      rcases hc with before | last
      · exact ih _ (Nat.div_lt_self (by omega) h1) before
      · exact ⟨n % base, Nat.mod_lt n (by omega), last⟩

theorem digit?_digitChar {d : Nat} (hbase : base ≤ 16) (hd : d < base) :
    digit? base (Nat.digitChar d) = some d := by
  have value : ∀ d < 16, digit? 16 (Nat.digitChar d) = some d := by decide
  have h := value d (by omega)
  simp only [digit?, Option.filter_eq_some_iff] at h ⊢
  exact ⟨h.1, by simpa using hd⟩

/-- The digits of a number, taken in from the first on, add up to the number. -/
theorem foldlM_toDigits (h1 : 1 < base) (hbase : base ≤ 16) (n : Nat) :
    (Nat.toDigits base n).foldlM (fun value c => (digit? base c).map (value * base + ·)) 0
      = some n := by
  induction n using Nat.strongRecOn with
  | ind n ih =>
    rcases Nat.lt_or_ge n base with h | h
    · simp [Nat.toDigits_of_lt_base h, digit?_digitChar hbase h]
    · have less : n / base < n := Nat.div_lt_self (by omega) h1
      have last : n % base < base := Nat.mod_lt n (by omega)
      rw [Nat.toDigits_of_base_le h1 h, List.foldlM_append, ih _ less]
      simp [digit?_digitChar hbase last, Nat.div_add_mod']

theorem ofDigits?_toDigits (h1 : 1 < base) (hbase : base ≤ 16) (n : Nat) :
    ofDigits? base (Nat.toDigits base n) = some n := by
  simp [ofDigits?, Nat.toDigits_ne_nil, foldlM_toDigits h1 hbase]

/-- A numeral up to the largest number is read; it has no sign in front that could be skipped. -/
theorem read?_toDigits {largest n : Nat} (h1 : 1 < base) (hbase : base ≤ 16)
    (hn : n ≤ largest) : read? base largest (Nat.toDigits base n) = some n := by
  have unsigned : ∀ rest, Nat.toDigits base n ≠ '+' :: rest := by
    intro rest h
    have := ofDigits?_toDigits h1 hbase n
    rw [h] at this
    simp [ofDigits?, digit?] at this
  rw [read?, ofDigits?_toDigits h1 hbase]
  · simp [hn]
  · exact unsigned

/-- A numeral begins with the digit zero only if that is all of it. -/
theorem eq_nil_of_toDigits_zero {n : Nat} (h1 : 1 < base) (hbase : base ≤ 16) {rest : List Char}
    (h : Nat.toDigits base n = '0' :: rest) : rest = [] := by
  induction n using Nat.strongRecOn generalizing rest with
  | ind n ih =>
    rcases Nat.lt_or_ge n base with small | large
    · rw [Nat.toDigits_of_lt_base small] at h
      exact (List.cons.inj h).2.symm
    · rw [Nat.toDigits_of_base_le h1 large] at h
      cases front : Nat.toDigits base (n / base) with
      | nil => exact absurd front Nat.toDigits_ne_nil
      | cons c more =>
        rw [front, List.cons_append, List.cons.injEq] at h
        have alone := ih _ (Nat.div_lt_self (by omega) h1) (h.1 ▸ front)
        rw [h.1, alone] at front
        have zero := ofDigits?_toDigits h1 hbase (n / base)
        have pos : 0 < n / base := Nat.div_pos large (by omega)
        have digit : digit? base '0' = some 0 :=
          digit?_digitChar hbase (d := 0) (by omega)
        rw [front] at zero
        simp [ofDigits?, digit] at zero
        omega

end Numeral

end Accelerator
