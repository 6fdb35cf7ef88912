import Accelerator.Fault
import Accelerator.Topology.Agent
import Accelerator.Topology.Region

/-!
# Configurations

A configuration describes the agents and regions of a runtime together with a few settings. It is
valid when names are distinct, sizes are powers of two, and owners are agents of the same
configuration.

## Main definitions

* `Config`: agents, regions and settings, and `Config.default`.
* `Config.validate`: the first fault of a configuration: agents in order, then regions in order,
  then the settings.
-/

namespace Accelerator

/-- A region together with the names of the agents attached to it. -/
structure RegionConfig where
  info : RegionInfo
  owners : List String
  deriving DecidableEq, Repr, Inhabited

/-- The topology of a runtime and its settings. -/
structure Config where
  agents : List AgentInfo
  regions : List RegionConfig
  /-- The most soft queues that may live at once. -/
  softQueueCapacity : UInt32
  /-- Threads that run kernels; 0 leaves the number open. -/
  workerThreads : UInt64
  /-- The longest single wait of a command processor in microseconds. -/
  processorPollUs : UInt64
  deriving DecidableEq, Repr, Inhabited

namespace Config

/-! ### The default configuration -/

/-- Bytes of a kibibyte. -/
def kib : UInt64 := 1024

/-- Bytes of a mebibyte. -/
def mib : UInt64 := 1024 * kib

/-- No limit on a grid's dimensions. -/
def anyGrid : Dim3 UInt32 := .replicate (.ofNat (UInt32.size - 1))

/-- The host processor, which hosts no queues. -/
def cpu : AgentInfo where
  name := "cpu0"
  vendor := "aql"
  deviceType := .cpu
  features := .agentDispatch
  queueMinSize := 64
  queueMaxSize := 4096
  queueMaxCount := 0
  queueType := .multi
  wavefrontSize := 1
  workgroupMaxDim := .replicate 1
  workgroupMaxSize := 1
  gridMaxDim := anyGrid
  gridMaxSize := .ofNat (UInt64.size - 1)
  isa := "aql-host"

/-- A graphics processor. -/
def gpu : AgentInfo where
  name := "gpu0"
  vendor := "aql"
  deviceType := .gpu
  features := .kernelDispatch
  queueMinSize := 64
  queueMaxSize := 131072
  queueMaxCount := 128
  queueType := .multi
  wavefrontSize := 64
  workgroupMaxDim := .replicate 1024
  workgroupMaxSize := 1024
  gridMaxDim := anyGrid
  gridMaxSize := .ofNat (UInt64.size - 1)
  isa := "aql-sim"

/-- A signal processor, which hosts few queues of a single producer each. -/
def dsp : AgentInfo where
  name := "dsp0"
  vendor := "aql"
  deviceType := .dsp
  features := .kernelDispatch
  queueMinSize := 64
  queueMaxSize := 4096
  queueMaxCount := 4
  queueType := .single
  wavefrontSize := 16
  workgroupMaxDim := .replicate 256
  workgroupMaxSize := 256
  gridMaxDim := anyGrid
  gridMaxSize := .ofNat (UInt64.size - 1)
  isa := "aql-sim"

/-- Memory that all agents share. -/
def system : RegionInfo where
  name := "system"
  segment := .globalMemory
  flags := ⟨GlobalFlags.kernarg.bits ||| GlobalFlags.fineGrained.bits⟩
  allocAllowed := true
  maxAllocation := 256 * mib
  granule := 4 * kib
  alignment := 4 * kib
  capacity := 1024 * mib

/-- Memory of one agent. -/
def localMemory (name : String) (maxAllocation capacity : UInt64) : RegionInfo where
  name := name
  segment := .globalMemory
  flags := .coarseGrained
  allocAllowed := true
  maxAllocation := maxAllocation
  granule := 4 * kib
  alignment := 4 * kib
  capacity := capacity

/-- Group memory, which is not handed out. -/
def groupMemory (name : String) : RegionInfo where
  name := name
  segment := .groupMemory
  flags := ⟨0⟩
  allocAllowed := false
  maxAllocation := 0
  granule := 1
  alignment := 16
  capacity := 64 * kib

/-- The configuration that is used when none is given. -/
def default : Config where
  agents := [cpu, gpu, dsp]
  regions :=
    [⟨system, [cpu.name, gpu.name, dsp.name]⟩,
      ⟨localMemory "gpu0-local" (256 * mib) (512 * mib), [gpu.name]⟩,
      ⟨groupMemory "gpu0-group", [gpu.name]⟩,
      ⟨localMemory "dsp0-local" (16 * mib) (64 * mib), [dsp.name]⟩]
  softQueueCapacity := 64
  workerThreads := 0
  processorPollUs := 200

/-! ### Validity -/

/-- The fault of one agent, given the names before it. -/
def validateAgent (seen : List String) (a : AgentInfo) : Except TopologyFault Unit :=
  if a.name ∈ seen then .error (.duplicateAgent a.name)
  else if a.queueMinSize.toNat.isPowerOfTwo ∧ a.queueMaxSize.toNat.isPowerOfTwo ∧
      a.queueMinSize ≤ a.queueMaxSize then .ok ()
  else .error (.queueSizes a.name a.queueMinSize a.queueMaxSize)

/-- The first fault of agents in order, given the names before them. -/
def validateAgents (seen : List String) : List AgentInfo → Except TopologyFault Unit
  | [] => .ok ()
  | a :: rest => do
    validateAgent seen a
    validateAgents (a.name :: seen) rest

/-- The fault of one region, given the names of the agents and of the regions before it. -/
def validateRegion (agents seen : List String) (r : RegionConfig) : Except TopologyFault Unit :=
  if r.info.name ∈ seen then .error (.duplicateRegion r.info.name)
  else if ¬ r.info.alignment.toNat.isPowerOfTwo then
    .error (.alignment r.info.name r.info.alignment)
  else if r.info.granule = 0 then .error (.zeroGranule r.info.name)
  else match r.owners.find? fun owner => owner ∉ agents with
    | some owner => .error (.unknownOwner r.info.name owner)
    | none => .ok ()

/-- The first fault of regions in order. -/
def validateRegions (agents seen : List String) : List RegionConfig → Except TopologyFault Unit
  | [] => .ok ()
  | r :: rest => do
    validateRegion agents seen r
    validateRegions agents (r.info.name :: seen) rest

/-- The first fault of a configuration. -/
def validate (c : Config) : Except TopologyFault Unit := do
  validateAgents [] c.agents
  validateRegions (c.agents.map (·.name)) [] c.regions
  if c.processorPollUs = 0 then .error .zeroPoll else .ok ()

end Config

end Accelerator
