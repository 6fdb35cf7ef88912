import Accelerator.Enumerated
import Accelerator.Word

/-!
# Status codes

Every outcome of a runtime operation has a number, so that callers who compare raw codes keep
working. Codes below `0x1000` tell of success.
-/

namespace Accelerator

/-- The outcome of an operation. -/
inductive Status where
  | success
  | infoBreak
  | error
  | invalidArgument
  | invalidQueueCreation
  | invalidAllocation
  | invalidAgent
  | invalidRegion
  | invalidSignal
  | invalidQueue
  | outOfResources
  | invalidPacketFormat
  | resourceFree
  | notInitialized
  | refcountOverflow
  | incompatibleArguments
  | invalidIndex
  | invalidIsa
  | invalidCodeObject
  | invalidExecutable
  | frozenExecutable
  | invalidSymbolName
  deriving DecidableEq, Repr, Inhabited

instance : Enumerated Status where
  members := [.success, .infoBreak, .error, .invalidArgument, .invalidQueueCreation,
    .invalidAllocation, .invalidAgent, .invalidRegion, .invalidSignal, .invalidQueue,
    .outOfResources, .invalidPacketFormat, .resourceFree, .notInitialized, .refcountOverflow,
    .incompatibleArguments, .invalidIndex, .invalidIsa, .invalidCodeObject, .invalidExecutable,
    .frozenExecutable, .invalidSymbolName]
  name
    | .success => "Success"
    | .infoBreak => "InfoBreak"
    | .error => "Error"
    | .invalidArgument => "InvalidArgument"
    | .invalidQueueCreation => "InvalidQueueCreation"
    | .invalidAllocation => "InvalidAllocation"
    | .invalidAgent => "InvalidAgent"
    | .invalidRegion => "InvalidRegion"
    | .invalidSignal => "InvalidSignal"
    | .invalidQueue => "InvalidQueue"
    | .outOfResources => "OutOfResources"
    | .invalidPacketFormat => "InvalidPacketFormat"
    | .resourceFree => "ResourceFree"
    | .notInitialized => "NotInitialized"
    | .refcountOverflow => "RefcountOverflow"
    | .incompatibleArguments => "IncompatibleArguments"
    | .invalidIndex => "InvalidIndex"
    | .invalidIsa => "InvalidIsa"
    | .invalidCodeObject => "InvalidCodeObject"
    | .invalidExecutable => "InvalidExecutable"
    | .frozenExecutable => "FrozenExecutable"
    | .invalidSymbolName => "InvalidSymbolName"
  mem_members a := by cases a <;> decide
  name_injective a b := by cases a <;> cases b <;> decide

namespace Status

/-- The number of a status. -/
def code : Status → UInt32
  | success => 0
  | infoBreak => 1
  | error => 0x1000
  | invalidArgument => 0x1001
  | invalidQueueCreation => 0x1002
  | invalidAllocation => 0x1003
  | invalidAgent => 0x1004
  | invalidRegion => 0x1005
  | invalidSignal => 0x1006
  | invalidQueue => 0x1007
  | outOfResources => 0x1008
  | invalidPacketFormat => 0x1009
  | resourceFree => 0x100a
  | notInitialized => 0x100b
  | refcountOverflow => 0x100c
  | incompatibleArguments => 0x100d
  | invalidIndex => 0x100e
  | invalidIsa => 0x100f
  | invalidCodeObject => 0x1010
  | invalidExecutable => 0x1011
  | frozenExecutable => 0x1012
  | invalidSymbolName => 0x1013

/-- The status tells of success, possibly with some information. -/
def isSuccess (s : Status) : Bool :=
  s.code < 0x1000

/-- The short identifier of a status in logs. -/
def identifier : Status → String
  | success => "SUCCESS"
  | infoBreak => "INFO_BREAK"
  | error => "ERROR"
  | invalidArgument => "ERROR_INVALID_ARGUMENT"
  | invalidQueueCreation => "ERROR_INVALID_QUEUE_CREATION"
  | invalidAllocation => "ERROR_INVALID_ALLOCATION"
  | invalidAgent => "ERROR_INVALID_AGENT"
  | invalidRegion => "ERROR_INVALID_REGION"
  | invalidSignal => "ERROR_INVALID_SIGNAL"
  | invalidQueue => "ERROR_INVALID_QUEUE"
  | outOfResources => "ERROR_OUT_OF_RESOURCES"
  | invalidPacketFormat => "ERROR_INVALID_PACKET_FORMAT"
  | resourceFree => "ERROR_RESOURCE_FREE"
  | notInitialized => "ERROR_NOT_INITIALIZED"
  | refcountOverflow => "ERROR_REFCOUNT_OVERFLOW"
  | incompatibleArguments => "ERROR_INCOMPATIBLE_ARGUMENTS"
  | invalidIndex => "ERROR_INVALID_INDEX"
  | invalidIsa => "ERROR_INVALID_ISA"
  | invalidCodeObject => "ERROR_INVALID_CODE_OBJECT"
  | invalidExecutable => "ERROR_INVALID_EXECUTABLE"
  | frozenExecutable => "ERROR_FROZEN_EXECUTABLE"
  | invalidSymbolName => "ERROR_INVALID_SYMBOL_NAME"

/-- The identifier followed by the number. -/
def describe (s : Status) : String :=
  s.identifier ++ " (" ++ Word.hex s.code.toNat ++ ")"

end Status

end Accelerator
