/-!
# Numerals

Reading an unsigned number from its digits in some base. A leading plus sign is allowed, at least
one digit is required, and nothing else may stand in the text: no blank, no minus sign, no mark
of the base.

## Main definitions

* `Numeral.ofDigits?`: the number that digits spell.
* `Numeral.read?`: the same after an optional plus sign, up to a largest number.
-/

namespace Accelerator

namespace Numeral

/-- The value of a digit, with letters of either case as the digits from ten on. -/
def digit? (base : Nat) (c : Char) : Option Nat :=
  let value :=
    if '0' ≤ c ∧ c ≤ '9' then some (c.toNat - '0'.toNat)
    else if 'a' ≤ c ∧ c ≤ 'z' then some (c.toNat - 'a'.toNat + 10)
    else if 'A' ≤ c ∧ c ≤ 'Z' then some (c.toNat - 'A'.toNat + 10)
    else none
  value.filter (· < base)

/-- The number that a non-empty list of digits spells, most significant digit first. -/
def ofDigits? (base : Nat) (cs : List Char) : Option Nat :=
  if cs.isEmpty then none
  else cs.foldlM (fun value c => (digit? base c).map (value * base + ·)) 0

/-- A numeral with an optional plus sign, when its number is at most `largest`. -/
def read? (base largest : Nat) (cs : List Char) : Option Nat :=
  let digits := match cs with
    | '+' :: rest => rest
    | cs => cs
  (ofDigits? base digits).filter (· ≤ largest)

end Numeral

end Accelerator
