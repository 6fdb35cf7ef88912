import Accelerator.Session.State

/-!
# Signals of a session

Making signals, changing them, waiting for them and destroying them. A signal is found by its
handle until it is destroyed; from then on every access is refused.

## Main definitions

* `Session.createSignal`, `Session.destroySignal`, `Session.signal`.
* `Session.loadSignal`, `Session.storeSignal`, `Session.updateSignal`.
* `Session.wait`, `Session.resumeWait`: waiting.
-/

namespace Accelerator

namespace Session

open Accelerator.Action

/-- The signal of a handle. -/
def signal (h : Handle) : Action Signal := do
  ensureOpen
  demand ((← session).signals.get? h) (.invalidSignal h)

/-- The signal of a handle as whoever held on to it sees it, destroyed or not. -/
def heldSignal? (s : Session) (h : Handle) : Option Signal :=
  s.signals.held? h

/-- The text of a signal as whoever held on to it sees it. -/
def describeSignal? (s : Session) (h : Handle) : Option String :=
  (s.heldSignal? h).map fun signal => signal.describe (!s.signals.isLive h)

/-! ### Making and destroying -/

/-- Makes a signal. The agents that will wait for it may be named, and then their number must be
right; a number of 0 means that none are named. -/
def createSignal (initial : Int64) (count : UInt32) (consumers : List Handle) : Action Handle := do
  ensureOpen
  let consumers := if count = 0 then [] else consumers
  require (consumers.length == count.toNat) (.argument (.consumerCount count consumers.length))
  consumers.forM fun h => discard (agent h)
  let h := (← session).signals.nextHandle
  change fun s => { s with signals := s.signals.insert ⟨h, initial, consumers⟩ }
  return h

/-- Destroys a signal. -/
def destroySignal (h : Handle) : Action Unit := do
  ensureOpen
  let (_, signals) ← demand ((← session).signals.remove h id) (.invalidSignal h)
  change fun s => { s with signals }

/-! ### Values -/

/-- The value of a signal. -/
def loadSignal (h : Handle) (order : MemoryOrder) : Action Int64 := do
  let current ← signal h
  let _ ← order.forLoad
  return current.value

/-- Stores a value. -/
def storeSignal (h : Handle) (value : Int64) (order : MemoryOrder) : Action Unit := do
  let _ ← signal h
  let _ ← order.forStore
  change fun s => s.modifySignal h fun signal => signal.setValue value

/-- Changes the value and shows what it was. Every memory order makes sense. -/
def updateSignal (h : Handle) (update : Signal.Update) (_order : MemoryOrder) : Action Int64 := do
  let current ← signal h
  change fun s => s.modifySignal h fun signal => signal.setValue (update.apply signal.value)
  return current.value

/-! ### Waiting -/

/-- Goes on waiting. A condition that holds, or a deadline that has passed, ends waiting even if
the signal has been destroyed since; otherwise the signal must still be there. -/
def resumeWait (w : Wait) : Action (Progress Wait Int64) := do
  let s ← session
  let held ← demand (s.heldSignal? w.signal) (.invalidSignal w.signal)
  match w.answer? held.value s.clock with
  | some value => return .done value
  | none =>
    let _ ← signal w.signal
    return .waiting w

/-- Waits for a signal. -/
def wait (w : Wait) : Action (Progress Wait Int64) := do
  let _ ← signal w.signal
  resumeWait w

end Session

end Accelerator
