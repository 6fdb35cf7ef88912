import Accelerator.Enumerated

/-!
# The finite types of the runtime

The words in which agents, regions, signals and queues are described: each type below has a
handful of members, and each member has the name by which it is written in configurations and
messages.

## Main definitions

* `DeviceType`, `QueueType`, `Segment`: what agents, queues and regions are.
* `MemoryOrder`, `Condition`, `WaitState`: how signals are accessed and waited for.
* `QueueState`, `AccessPermission`: what queues and allocations are going through.
* `QueueType.supports`, `Condition.holds`: the two relations between them.
-/

namespace Accelerator

/-! ### Agents, queues and regions -/

/-- The kind of a compute device. -/
inductive DeviceType where
  | cpu
  | gpu
  | dsp
  deriving DecidableEq, Repr, Inhabited

instance : Enumerated DeviceType where
  members := [.cpu, .gpu, .dsp]
  name
    | .cpu => "cpu"
    | .gpu => "gpu"
    | .dsp => "dsp"
  mem_members a := by cases a <;> decide
  name_injective a b := by cases a <;> cases b <;> decide

/-- How many producers may reserve slots of a queue. -/
inductive QueueType where
  /-- One producer. -/
  | single
  /-- Any number of producers at once. -/
  | multi
  deriving DecidableEq, Repr, Inhabited

instance : Enumerated QueueType where
  members := [.single, .multi]
  name
    | .single => "single"
    | .multi => "multi"
  mem_members a := by cases a <;> decide
  name_injective a b := by cases a <;> cases b <;> decide

namespace QueueType

/-- The name of a queue type in messages, which is capitalised. -/
def title : QueueType → String
  | single => "Single"
  | multi => "Multi"

/-- The queue type that a number stands for. -/
def ofCode? (raw : UInt32) : Option QueueType :=
  match raw.toNat with
  | 0 => some single
  | 1 => some multi
  | _ => none

/-- An agent of the first queue type can host a queue of the second. -/
def supports : QueueType → QueueType → Bool
  | multi, _ => true
  | single, requested => requested == single

end QueueType

/-- The address space of a region. -/
inductive Segment where
  | globalMemory
  | readOnlyMemory
  | privateMemory
  | groupMemory
  deriving DecidableEq, Repr, Inhabited

instance : Enumerated Segment where
  members := [.globalMemory, .readOnlyMemory, .privateMemory, .groupMemory]
  name
    | .globalMemory => "global"
    | .readOnlyMemory => "readonly"
    | .privateMemory => "private"
    | .groupMemory => "group"
  mem_members a := by cases a <;> decide
  name_injective a b := by cases a <;> cases b <;> decide

/-! ### Signals -/

/-- The memory order that a caller asks for. -/
inductive MemoryOrder where
  | relaxed
  | acquire
  | release
  | acquireRelease
  deriving DecidableEq, Repr, Inhabited

instance : Enumerated MemoryOrder where
  members := [.relaxed, .acquire, .release, .acquireRelease]
  name
    | .relaxed => "Relaxed"
    | .acquire => "Acquire"
    | .release => "Release"
    | .acquireRelease => "AcqRel"
  mem_members a := by cases a <;> decide
  name_injective a b := by cases a <;> cases b <;> decide

/-- The comparison that a waiter waits for. -/
inductive Condition where
  | equal
  | notEqual
  | less
  | greaterOrEqual
  deriving DecidableEq, Repr, Inhabited

instance : Enumerated Condition where
  members := [.equal, .notEqual, .less, .greaterOrEqual]
  name
    | .equal => "Eq"
    | .notEqual => "Ne"
    | .less => "Lt"
    | .greaterOrEqual => "Gte"
  mem_members a := by cases a <;> decide
  name_injective a b := by cases a <;> cases b <;> decide

/-- The comparison between a signal's value and the value that a waiter names. -/
def Condition.holds (condition : Condition) (value compare : Int64) : Bool :=
  match condition with
  | equal => value == compare
  | notEqual => value != compare
  | less => value < compare
  | greaterOrEqual => compare ≤ value

/-- How a waiter passes the time. -/
inductive WaitState where
  | blocked
  | active
  deriving DecidableEq, Repr, Inhabited

instance : Enumerated WaitState where
  members := [.blocked, .active]
  name
    | .blocked => "Blocked"
    | .active => "Active"
  mem_members a := by cases a <;> decide
  name_injective a b := by cases a <;> cases b <;> decide

/-! ### Life of queues and allocations -/

/-- Where a queue is in its life. -/
inductive QueueState where
  | active
  /-- No new reservations; what is published is still consumed. -/
  | inactive
  | destroyed
  deriving DecidableEq, Repr, Inhabited

instance : Enumerated QueueState where
  members := [.active, .inactive, .destroyed]
  name
    | .active => "Active"
    | .inactive => "Inactive"
    | .destroyed => "Destroyed"
  mem_members a := by cases a <;> decide
  name_injective a b := by cases a <;> cases b <;> decide

/-- What the owner of a coarse-grained allocation may do with it. -/
inductive AccessPermission where
  | readOnly
  | writeOnly
  | readWrite
  deriving DecidableEq, Repr, Inhabited

instance : Enumerated AccessPermission where
  members := [.readOnly, .writeOnly, .readWrite]
  name
    | .readOnly => "ReadOnly"
    | .writeOnly => "WriteOnly"
    | .readWrite => "ReadWrite"
  mem_members a := by cases a <;> decide
  name_injective a b := by cases a <;> cases b <;> decide

end Accelerator
