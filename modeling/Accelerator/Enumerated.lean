/-!
# Enumerations with names

The finite types of the library (packet types, conditions, memory orders and so on) are written
and read by name. Such a type lists its members, names each of them, and finds a member by its
name.

## Main definitions

* `Enumerated`: a type whose members are listed and named.
* `Enumerated.ofName?`: the member with a given name.

## Main statements

* `Enumerated.ofName?_name`: a member is found by its own name, as names are distinct.
-/

namespace Accelerator

/-- A finite type: its members in order of declaration, each with a name of its own. -/
class Enumerated (α : Type) where
  /-- The members in order of declaration. -/
  members : List α
  /-- The name of a member. -/
  name : α → String
  mem_members : ∀ a, a ∈ members
  name_injective : ∀ a b, name a = name b → a = b

namespace Enumerated

variable {α : Type} [Enumerated α]

/-- The member with the given name. -/
def ofName? (s : String) : Option α :=
  (members (α := α)).find? fun a => name a == s

theorem ofName?_name (a : α) : ofName? (name a) = some a := by
  cases h : ofName? (α := α) (name a) with
  | none =>
    have := List.find?_eq_none.mp h a (mem_members a)
    simp at this
  | some b =>
    have := List.find?_some h
    simp only [beq_iff_eq] at this
    exact congrArg some (name_injective b a this)

end Enumerated

end Accelerator
