import Accelerator.Enumerated
import Accelerator.Json.Value

/-!
# Taking values out of JSON trees

The rules by which described values are found in a tree. Integers are written as integers and lie
in the range of their type. A record is an object, in which members that it does not know are
skipped and members that it knows may stand only once, or an array of its fields in order. A
member of an enumeration is its name, or an object with its name as the only member and null as
the value.

## Main definitions

* `Json.natural?`, `Json.bool?`, `Json.text?`, `Json.list?`, `Json.triple?`: plain values.
* `Json.member?`: members of enumerations.
* `Json.record?`: the fields of a record.
-/

namespace Accelerator

namespace Json

/-- A natural number up to a largest one. -/
def natural? (largest : Nat) : Json → Option Nat
  | number n => n.natural?.filter (· ≤ largest)
  | _ => none

/-- A 16-bit word. -/
def uint16? (j : Json) : Option UInt16 :=
  (j.natural? (UInt16.size - 1)).map .ofNat

/-- A 32-bit word. -/
def uint32? (j : Json) : Option UInt32 :=
  (j.natural? (UInt32.size - 1)).map .ofNat

/-- A 64-bit word. -/
def uint64? (j : Json) : Option UInt64 :=
  (j.natural? (UInt64.size - 1)).map .ofNat

/-- A truth value. -/
def bool? : Json → Option Bool
  | bool b => some b
  | _ => none

/-- A text. -/
def text? : Json → Option String
  | string s => s
  | _ => none

/-- A list, all of whose items can be taken out. -/
def list? {α : Type} (item? : Json → Option α) : Json → Option (List α)
  | array items => items.mapM item?
  | _ => none

/-- A list of exactly three items. -/
def triple? {α : Type} (item? : Json → Option α) : Json → Option (α × α × α)
  | array [x, y, z] => do some (← item? x, ← item? y, ← item? z)
  | _ => none

/-- The tree stands for "nothing more" behind the name of an enumeration's member. Where trees are
held as values first, an empty object does so too. -/
def isUnit (held : Bool) : Json → Bool
  | null => true
  | object [] => held
  | _ => false

/-- A member of an enumeration. -/
def member? {α : Type} [Enumerated α] (held : Bool) : Json → Option α
  | string (some name) => Enumerated.ofName? name
  | object [(some name, value)] => if value.isUnit held then Enumerated.ofName? name else none
  | _ => none

/-- The fields of a record, as a function from names to what stands for them. -/
def record? (names : List String) : Json → Option (String → Option Json)
  | object members =>
    if members.any (fun m => m.1.isNone) ||
        names.any (fun name => 1 < (members.filter fun m => m.1 == some name).length) then none
    else some fun name => (members.find? fun m => m.1 == some name).map (·.2)
  | array items =>
    if names.length < items.length then none
    else some fun name => items[names.idxOf name]?
  | _ => none

end Json

end Accelerator
