import Accelerator.Directory
import Accelerator.Executable
import Accelerator.Queue
import Accelerator.Signal
import Accelerator.Topology.Config

/-!
# Sessions

A session is the whole state between the opening of a configuration and its shutting down: the
agents and regions, the signals, queues and executables that the application has made, memory, and
what has been told to the application. Everything that the application does is an *action*: it
gives an answer or a fault, and changes the session.

An action that fails may have changed the session before it failed.

## Main definitions

* `Session`, and `Session.ofConfig?`: the session that a configuration opens.
* `Action`: what the application does, a monad; `Action.refuse`, `Action.demand`: faults.
* `Session.ensureOpen`: the first check of almost every action.
-/

namespace Accelerator

/-! ### The state -/

/-- A packet that failed, as told to the application. -/
structure Notice where
  queue : Handle
  fault : Fault
  deriving DecidableEq, Repr, Inhabited

/-- The state between opening a configuration and shutting down. -/
structure Session where
  config : Config
  /-- The session has not been shut down. -/
  isOpen : Bool
  /-- Ticks since the session was opened. -/
  clock : UInt64
  agents : Arena Agent
  regions : Arena Region
  signals : Directory Signal
  queues : Directory Queue
  executables : Directory Executable
  memory : Memory
  /-- The kernels of all frozen executables. -/
  kernels : KernelTable
  nextQueueId : UInt64
  nextKernelObject : UInt64
  /-- Number of live soft queues. -/
  softQueues : UInt32
  /-- What kernels have reported, the last in front. -/
  reports : List Report
  /-- Packets that failed, in order of time. -/
  notices : List Notice
  deriving Inhabited

/-! ### Actions -/

/-- Something that the application does in a session. -/
def Action (α : Type) : Type :=
  Session → Except Fault α × Session

namespace Action

variable {α β : Type}

/-- Nothing but an answer. -/
protected def pure (a : α) : Action α :=
  fun s => (.ok a, s)

/-- One action after another; a fault ends both. -/
protected def bind (x : Action α) (f : α → Action β) : Action β :=
  fun s =>
    match x s with
    | (.ok a, s) => f a s
    | (.error e, s) => (.error e, s)

instance : Monad Action where
  pure := Action.pure
  bind := Action.bind

instance : Inhabited (Action α) := ⟨fun s => (.error .notInitialized, s)⟩

/-- The session itself. -/
def session : Action Session :=
  fun s => (.ok s, s)

/-- Changes the session. -/
def change (f : Session → Session) : Action Unit :=
  fun s => (.ok (), f s)

/-- A fault. -/
def refuse (e : Fault) : Action α :=
  fun s => (.error e, s)

/-- A fault unless something holds. -/
def require (p : Bool) (e : Fault) : Action Unit :=
  if p then Action.pure () else refuse e

/-- A fault unless there is something. -/
def demand (a : Option α) (e : Fault) : Action α :=
  match a with
  | some a => Action.pure a
  | none => refuse e

/-- The answer of a check, or its fault. -/
def ofExcept (a : Except Fault α) : Action α :=
  fun s => (a, s)

instance : MonadLift (Except Fault) Action := ⟨ofExcept⟩

@[simp] theorem pure_apply (a : α) (s : Session) : (pure a : Action α) s = (.ok a, s) := rfl

theorem bind_apply (x : Action α) (f : α → Action β) (s : Session) :
    (x >>= f) s = match x s with
      | (.ok a, s) => f a s
      | (.error e, s) => (.error e, s) := rfl

@[simp] theorem session_apply (s : Session) : session s = (.ok s, s) := rfl

@[simp] theorem change_apply (f : Session → Session) (s : Session) :
    change f s = (.ok (), f s) := rfl

@[simp] theorem refuse_apply (e : Fault) (s : Session) : (refuse e : Action α) s = (.error e, s) :=
  rfl

end Action

/-- How far a call has come that may have to wait for others: with its answer, or waiting with
what is left to do. A call whose index leaves 64 bits has no answer at all. -/
inductive Progress (π α : Type) where
  | done (answer : α)
  | waiting (rest : π)
  | overflowed
  deriving Repr, Inhabited

namespace Session

open Accelerator.Action

/-! ### Opening -/

/-- The agents of a configuration, at handles in order. -/
def openAgents (c : Config) : Arena Agent :=
  c.agents.foldl (fun agents info => agents.insert (.ofInfo agents.nextHandle info)) .empty

/-- The handle of the agent with a name. -/
def agentNamed? (agents : Arena Agent) (name : String) : Option Handle :=
  (agents.values.find? fun a => a.info.name == name).map (·.handle)

/-- The regions of a configuration, at handles in order, with the handles of their owners. -/
def openRegions (c : Config) (agents : Arena Agent) : Arena Region :=
  c.regions.foldl
    (fun regions r =>
      regions.insert (.ofInfo regions.nextHandle r.info (r.owners.filterMap (agentNamed? agents))))
    .empty

/-- The number of the first kernel; numbers of kernels are never 0. -/
def firstKernelObject : UInt64 := 0x1000

/-- The session that a configuration opens. -/
def ofConfig (c : Config) : Session where
  config := c
  isOpen := true
  clock := 2
  agents := openAgents c
  regions := openRegions c (openAgents c)
  signals := .empty
  queues := .empty
  executables := .empty
  memory := .empty
  kernels := []
  nextQueueId := 0
  nextKernelObject := firstKernelObject
  softQueues := 0
  reports := []
  notices := []

/-- Opens a configuration if it is valid. -/
def openConfig (c : Config) : Except Fault Session :=
  match c.validate with
  | .ok () => .ok (ofConfig c)
  | .error cause => .error (.argument (.topology cause))

/-! ### Changing parts -/

/-- Changes the agent of a handle. -/
def modifyAgent (s : Session) (h : Handle) (f : Agent → Agent) : Session :=
  { s with agents := s.agents.modify h f }

/-- Changes the region of a handle. -/
def modifyRegion (s : Session) (h : Handle) (f : Region → Region) : Session :=
  { s with regions := s.regions.modify h f }

/-- Changes the signal of a handle. -/
def modifySignal (s : Session) (h : Handle) (f : Signal → Signal) : Session :=
  { s with signals := s.signals.modify h f }

/-- Changes the queue of a handle. -/
def modifyQueue (s : Session) (h : Handle) (f : Queue → Queue) : Session :=
  { s with queues := s.queues.modify h f }

/-- Changes the queue of a handle as whoever held on to it does, destroyed or not. -/
def modifyHeldQueue (s : Session) (h : Handle) (f : Queue → Queue) : Session :=
  { s with queues := s.queues.modifyHeld h f }

/-- Changes the executable of a handle. -/
def modifyExecutable (s : Session) (h : Handle) (f : Executable → Executable) : Session :=
  { s with executables := s.executables.modify h f }

/-! ### Looking around -/

/-- The session has not been shut down. -/
def ensureOpen : Action Unit := do
  require (← session).isOpen .notInitialized

/-- The agent of a handle. -/
def agent (h : Handle) : Action Agent := do
  ensureOpen
  demand ((← session).agents.get? h) (.invalidAgent h)

/-- The region of a handle. -/
def region (h : Handle) : Action Region := do
  ensureOpen
  demand ((← session).regions.get? h) (.invalidRegion h)

/-- The regions that an agent is attached to. -/
def regionsOf (h : Handle) : Action (List Region) := do
  let a ← agent h
  return (← session).regions.values.filter fun r => r.owners.contains a.handle

/-- The first agent with a name; agents stay visible after the session was shut down. -/
def findAgent? (s : Session) (name : String) : Option Agent :=
  s.agents.values.find? fun a => a.info.name == name

/-- The first region with a name; regions stay visible after the session was shut down. -/
def findRegion? (s : Session) (name : String) : Option Region :=
  s.regions.values.find? fun r => r.info.name == name

/-- The version of the interface: major and minor. -/
def version : UInt16 × UInt16 := (1, 2)

/-- Ticks of the clock in a second. -/
def timestampFrequency : UInt64 := 1000000000

/-- Ticks since the session was opened. -/
def timestamp : Action UInt64 := do
  ensureOpen
  return (← session).clock

/-- The session at a tick, unless that has passed. -/
def advanceTo (s : Session) (tick : UInt64) : Session :=
  { s with clock := max s.clock tick }

/-- The session as shown in messages. -/
def describe (s : Session) : String :=
  Text.record "Runtime"
    [("open", if s.isOpen then "true" else "false"), ("agents", toString s.agents.size),
      ("regions", toString s.regions.size), ("signals", toString s.signals.size),
      ("queues", toString s.queues.size), ("executables", toString s.executables.size)] false

end Session

end Accelerator
