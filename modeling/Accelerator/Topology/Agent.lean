import Accelerator.Dim3
import Accelerator.Flags
import Accelerator.Handle
import Accelerator.Vocabulary

/-!
# Agents

An agent is a compute device. What it is and what it can take is fixed when the runtime opens; the
only thing about it that changes is the number of its live queues.

## Main definitions

* `AgentInfo`: the fixed attributes of an agent.
* `Agent`: an agent with the count of its queues.
-/

namespace Accelerator

/-- The fixed attributes of an agent. -/
structure AgentInfo where
  name : String
  vendor : String
  deviceType : DeviceType
  features : Features
  queueMinSize : UInt32
  queueMaxSize : UInt32
  /-- The most queues that may live at once; 0 for an agent that hosts none. -/
  queueMaxCount : UInt32
  queueType : QueueType
  wavefrontSize : UInt32
  workgroupMaxDim : Dim3 UInt16
  workgroupMaxSize : UInt32
  gridMaxDim : Dim3 UInt32
  gridMaxSize : UInt64
  isa : String
  deriving DecidableEq, Repr, Inhabited

/-- An agent of an open runtime. -/
structure Agent where
  handle : Handle
  info : AgentInfo
  liveQueues : UInt32
  deriving DecidableEq, Repr, Inhabited

namespace Agent

/-- An agent without queues. -/
def ofInfo (h : Handle) (info : AgentInfo) : Agent :=
  ⟨h, info, 0⟩

/-- The agent hosts queues at all. -/
def hostsQueues (a : Agent) : Bool :=
  a.info.features.canDispatch && a.info.queueMaxCount != 0

/-- The agent has room for another queue. -/
def hasRoom (a : Agent) : Bool :=
  a.liveQueues < a.info.queueMaxCount

/-- The agent with one more queue. -/
def addQueue (a : Agent) : Agent :=
  { a with liveQueues := a.liveQueues + 1 }

/-- The agent with one queue less. -/
def dropQueue (a : Agent) : Agent :=
  { a with liveQueues := a.liveQueues - 1 }

end Agent

end Accelerator
