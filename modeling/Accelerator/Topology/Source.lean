import Accelerator.Text.Blank
import Accelerator.Topology.Codec

/-!
# Where configurations come from

A configuration is read from a JSON text, from a file that holds one, or put together from
environment variables: one of them may name a file to be used instead of the default
configuration, two others replace single settings. Whatever the source, the result is valid.

## Main definitions

* `ConfigFault`: why no configuration comes out.
* `Config.ofText`, `Config.ofFile`, `Config.ofEnvironment`: the three sources.
-/

namespace Accelerator

/-- Why a source gives no configuration. -/
inductive ConfigFault where
  | unreadable (path reason : String)
  | malformed
  | topology (cause : TopologyFault)
  | environment (name value : String)
  deriving DecidableEq, Repr, Inhabited

namespace ConfigFault

/-- The name of a kind of fault. -/
def name : ConfigFault → String
  | unreadable .. => "Io"
  | malformed => "Json"
  | topology (.duplicateAgent ..) => "DuplicateAgent"
  | topology (.queueSizes ..) => "InvalidQueueSizes"
  | topology (.duplicateRegion ..) => "DuplicateRegion"
  | topology (.alignment ..) | topology (.zeroGranule ..) => "InvalidRegion"
  | topology (.unknownOwner ..) => "UnknownOwner"
  | topology .zeroPoll => "ZeroPollInterval"
  | environment .. => "InvalidEnv"

/-- The sentence that tells of a fault; a malformed text is not described further. -/
def message : ConfigFault → String
  | unreadable path reason => "failed to read " ++ path ++ ": " ++ reason
  | malformed => "invalid topology"
  | topology cause => cause.message
  | environment name value => name ++ "=" ++ value ++ " is not a valid value"

end ConfigFault

namespace Config

/-- The configuration, if it is valid. -/
def validated (c : Config) : Except ConfigFault Config :=
  match c.validate with
  | .ok () => .ok c
  | .error cause => .error (.topology cause)

/-- The configuration in a JSON text. -/
def ofText (s : String) : Except ConfigFault Config :=
  match (Json.ofText? s).bind ofJson? with
  | none => .error .malformed
  | some c => c.validated

/-- The configuration in a file; `read` gives the text of a file or the reason why there is
none. -/
def ofFile (read : String → Except String String) (path : String) : Except ConfigFault Config :=
  match read path with
  | .error reason => .error (.unreadable path reason)
  | .ok s => ofText s

/-- The variable that names a file to be used instead of the default configuration. -/
def topologyVariable : String := "AQL_TOPOLOGY"

/-- The variable for the number of worker threads. -/
def workerThreadsVariable : String := "AQL_WORKER_THREADS"

/-- The variable for the number of soft queues. -/
def softQueueCapacityVariable : String := "AQL_SOFT_QUEUE_CAPACITY"

/-- The number that a variable holds, blanks around it skipped. -/
def variableNumber (name value : String) (largest : Nat) : Except ConfigFault Nat :=
  match Numeral.read? 10 largest (Text.trim value.toList) with
  | some n => .ok n
  | none => .error (.environment name value)

/-- The configuration that environment variables ask for; `lookup` gives the values of variables
that are set. -/
def ofEnvironment (lookup : String → Option String) (read : String → Except String String) :
    Except ConfigFault Config := do
  let path := Text.trimmed ((lookup topologyVariable).getD "")
  let config ← if path.isEmpty then .ok default else ofFile read path
  let config ← match lookup workerThreadsVariable with
    | none => .ok config
    | some value => do
      let n ← variableNumber workerThreadsVariable value (UInt64.size - 1)
      .ok { config with workerThreads := .ofNat n }
  let config ← match lookup softQueueCapacityVariable with
    | none => .ok config
    | some value => do
      let n ← variableNumber softQueueCapacityVariable value (UInt32.size - 1)
      .ok { config with softQueueCapacity := .ofNat n }
  config.validated

end Config

end Accelerator
