import Accelerator.Fault
import Accelerator.Text.Quoted

/-!
# Signals

A signal is a 64-bit signed value that agents and the application count on. Its value is read,
stored, or changed by an update that shows what the value was; sums and differences go round.

Loads, stores and updates are asked for with a memory order. A load cannot release and a store
cannot acquire, so the orders that make no sense for them are refused.

## Main definitions

* `MemoryOrder.forLoad`, `MemoryOrder.forStore`, `MemoryOrder.forUpdate`: orders that make sense.
* `Signal`, and `Signal.Update` with `Signal.Update.apply`.
* `Wait`: what somebody waits for a signal to become, with `Wait.answer?` for the end of waiting.
-/

namespace Accelerator

/-! ### Memory orders -/

namespace MemoryOrder

/-- The order of a load: relaxed or acquire. -/
def forLoad (order : MemoryOrder) : Except Fault MemoryOrder :=
  match order with
  | relaxed | acquire => .ok order
  | release | acquireRelease => .error (.argument (.loadOrder order))

/-- The order of a store: relaxed or release. -/
def forStore (order : MemoryOrder) : Except Fault MemoryOrder :=
  match order with
  | relaxed | release => .ok order
  | acquire | acquireRelease => .error (.argument (.storeOrder order))

/-- The order of an update: any. -/
def forUpdate (order : MemoryOrder) : MemoryOrder :=
  order

end MemoryOrder

/-! ### Signals -/

/-- A value to count on. -/
structure Signal where
  handle : Handle
  value : Int64
  /-- The agents that were said to wait for the signal. -/
  consumers : List Handle
  deriving DecidableEq, Repr, Inhabited

namespace Signal

/-- A change of a signal's value that depends on the value alone. -/
inductive Update where
  | exchange (value : Int64)
  /-- Exchanges the value if it is the expected one. -/
  | compareAndSwap (expected value : Int64)
  | add (value : Int64)
  | subtract (value : Int64)
  | and (value : Int64)
  | or (value : Int64)
  | xor (value : Int64)
  deriving DecidableEq, Repr, Inhabited

/-- What an update makes of a value. -/
def Update.apply : Update → Int64 → Int64
  | exchange value, _ => value
  | compareAndSwap expected value, current => if current = expected then value else current
  | add value, current => current + value
  | subtract value, current => current - value
  | and value, current => current &&& value
  | or value, current => current ||| value
  | xor value, current => current ^^^ value

/-- The signal with another value. -/
def setValue (s : Signal) (value : Int64) : Signal :=
  { s with value }

/-- The signal as shown in messages; whether it has been destroyed is known elsewhere. -/
def describe (s : Signal) (destroyed : Bool) : String :=
  Text.record "Signal"
    [("handle", s.handle.describe), ("value", toString s.value.toInt),
      ("destroyed", if destroyed then "true" else "false")] false

end Signal

/-! ### Waiting -/

/-- What somebody waits for: a condition on a signal's value, or a point in time. -/
structure Wait where
  signal : Handle
  condition : Condition
  compare : Int64
  /-- The tick at which waiting ends in any case; the largest tick is never reached. -/
  deadline : UInt64
  deriving DecidableEq, Repr, Inhabited

namespace Wait

/-- The deadline of those who wait without end. -/
def forever : UInt64 := .ofNat (UInt64.size - 1)

/-- The value with which waiting ends, given the value that the signal has at a tick. -/
def answer? (w : Wait) (value : Int64) (now : UInt64) : Option Int64 :=
  if w.condition.holds value w.compare then some value
  else if w.deadline ≤ now then some value
  else none

end Wait

end Accelerator
