import Accelerator.Text.Numeral

/-!
# JSON values

The tree of a JSON text, before it is known what the text describes. Numbers keep the digits they
were written with, because readers distinguish integers from other numbers by their spelling, and
objects keep all members in order, because a repeated member may be a fault.

## Main definitions

* `Json.Number`: a number literal; `Json.Number.natural?` is its value if it is an integer without
  a sign.
* `Json.Literal`: what a string literal spells.
* `Json`: the tree.
* `Json.fits`: the tree can be held as a value: no string or number in it lacks one, and it is not
  nested too deeply.
-/

namespace Accelerator

namespace Json

/-- A number literal by its parts: sign, whole digits, digits after the point, and the exponent
as a sign and digits. -/
structure Number where
  negative : Bool
  whole : List Char
  fraction : List Char
  exponent : Option (Bool × List Char)
  deriving DecidableEq, Repr, Inhabited

namespace Number

/-- The literal of a natural number. -/
def ofNat (n : Nat) : Number :=
  ⟨false, Nat.toDigits 10 n, [], none⟩

/-- The value of an integer literal without a sign; nothing for any other number. -/
def natural? (n : Number) : Option Nat :=
  if n.negative || !n.fraction.isEmpty || n.exponent.isSome then none
  else Numeral.ofDigits? 10 n.whole

/-- The number is below the first that is rounded to infinity as a 64-bit binary float: `2 ^ 1024`
less half a unit in the last place. Numbers that are far from it are told by their digit count. -/
def isFinite (n : Number) : Bool :=
  let digits := n.whole ++ n.fraction
  let significand := (Numeral.ofDigits? 10 digits).getD 0
  let exponent : Int := n.exponent.elim 0 fun (negative, ds) =>
    let e := (Numeral.ofDigits? 10 ds).getD 0
    if negative then -(e : Int) else e
  let shift := exponent - n.fraction.length
  let digitCount : Int := (Nat.toDigits 10 significand).length
  let limit := Nat.pow 2 1024 - Nat.pow 2 970
  if significand = 0 then true
  else if digitCount + shift > 400 then false
  else if digitCount + shift < 300 then true
  else if shift ≥ 0 then significand * Nat.pow 10 shift.toNat < limit
  else significand < limit * Nat.pow 10 (-shift).toNat

end Number

/-- The text that a string literal spells; nothing when its escapes spell half of a surrogate
pair, which is no text. -/
abbrev Literal := Option String

end Json

/-- The tree of a JSON text. -/
inductive Json where
  | null
  | bool (value : Bool)
  | number (value : Json.Number)
  | string (value : Json.Literal)
  | array (items : List Json)
  | object (members : List (Json.Literal × Json))
  deriving Repr, Inhabited

namespace Json

/-- The literal of a text. -/
def ofString (s : String) : Json :=
  .string (some s)

/-- The literal of a natural number. -/
def ofNat (n : Nat) : Json :=
  .number (.ofNat n)

/-- The object with given members. -/
def ofMembers (members : List (String × Json)) : Json :=
  .object (members.map fun (name, value) => (some name, value))

mutual

/-- The tree can be held as a value: every string spells a text, every number is finite, and
containers are nested at most `depth` deep. -/
def fits : Nat → Json → Bool
  | _, null | _, bool _ => true
  | _, number n => n.isFinite
  | _, string s => s.isSome
  | 0, array _ | 0, object _ => false
  | depth + 1, array items => fitsAll depth items
  | depth + 1, object members => fitsMembers depth members

/-- All trees of a list can be held as values. -/
def fitsAll : Nat → List Json → Bool
  | _, [] => true
  | depth, item :: rest => fits depth item && fitsAll depth rest

/-- All members of an object can be held as values. -/
def fitsMembers : Nat → List (Literal × Json) → Bool
  | _, [] => true
  | depth, (name, value) :: rest => name.isSome && fits depth value && fitsMembers depth rest

end

end Json

end Accelerator
