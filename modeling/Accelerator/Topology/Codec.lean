import Accelerator.Json.Decode
import Accelerator.Json.Text
import Accelerator.Topology.Config

/-!
# Configurations as JSON

A configuration is written as one JSON object without blanks, the fields in order of declaration.
A region's owners stand beside its attributes in one object. On reading, the flags of a region and
the number of worker threads may be left out.

## Main definitions

* `AgentInfo.toJson`, `RegionInfo.toJson`, `RegionConfig.toJson`, `Config.toJson`: writing.
* `AgentInfo.ofJson?`, `RegionInfo.ofJson?`, `RegionConfig.ofJson?`, `Config.ofJson?`: reading.
* `Config.override?`: a configuration with some members replaced.

## Implementation notes

The attributes of a region are found among the members of its object only after all of them have
been held as values, since which of them are attributes is not known before. So members that a
region does not know are skipped like everywhere else, but they must fit as values: `Json.fits`.
-/

namespace Accelerator

/-- The literal of a 32-bit word. -/
def Json.ofUInt32 (n : UInt32) : Json :=
  .ofNat n.toNat

/-- The literal of a 64-bit word. -/
def Json.ofUInt64 (n : UInt64) : Json :=
  .ofNat n.toNat

/-- The literal of an enumeration's member: its name. -/
def Json.ofMember {α : Type} [Enumerated α] (a : α) : Json :=
  .ofString (Enumerated.name a)

namespace AgentInfo

/-- The fields of an agent in order. -/
def fieldNames : List String :=
  ["name", "vendor", "device_type", "features", "queue_min_size", "queue_max_size",
    "queue_max_count", "queue_type", "wavefront_size", "workgroup_max_dim", "workgroup_max_size",
    "grid_max_dim", "grid_max_size", "isa"]

/-- An agent as a JSON object. -/
def toJson (a : AgentInfo) : Json :=
  .ofMembers
    [("name", .ofString a.name), ("vendor", .ofString a.vendor),
      ("device_type", .ofMember a.deviceType),
      ("features", .ofString (Flags.text Features.names a.features.bits)),
      ("queue_min_size", .ofUInt32 a.queueMinSize), ("queue_max_size", .ofUInt32 a.queueMaxSize),
      ("queue_max_count", .ofUInt32 a.queueMaxCount), ("queue_type", .ofMember a.queueType),
      ("wavefront_size", .ofUInt32 a.wavefrontSize),
      ("workgroup_max_dim", .array (a.workgroupMaxDim.toList.map fun d => .ofNat d.toNat)),
      ("workgroup_max_size", .ofUInt32 a.workgroupMaxSize),
      ("grid_max_dim", .array (a.gridMaxDim.toList.map Json.ofUInt32)),
      ("grid_max_size", .ofUInt64 a.gridMaxSize), ("isa", .ofString a.isa)]

/-- The agent that a tree describes. -/
def ofJson? (j : Json) : Option AgentInfo := do
  let field ← j.record? fieldNames
  let (wx, wy, wz) ← (field "workgroup_max_dim").bind (Json.triple? Json.uint16?)
  let (gx, gy, gz) ← (field "grid_max_dim").bind (Json.triple? Json.uint32?)
  some {
    name := ← (field "name").bind Json.text?
    vendor := ← (field "vendor").bind Json.text?
    deviceType := ← (field "device_type").bind (Json.member? false)
    features := ⟨← ((field "features").bind Json.text?).bind (Flags.ofText? Features.names)⟩
    queueMinSize := ← (field "queue_min_size").bind Json.uint32?
    queueMaxSize := ← (field "queue_max_size").bind Json.uint32?
    queueMaxCount := ← (field "queue_max_count").bind Json.uint32?
    queueType := ← (field "queue_type").bind (Json.member? false)
    wavefrontSize := ← (field "wavefront_size").bind Json.uint32?
    workgroupMaxDim := ⟨wx, wy, wz⟩
    workgroupMaxSize := ← (field "workgroup_max_size").bind Json.uint32?
    gridMaxDim := ⟨gx, gy, gz⟩
    gridMaxSize := ← (field "grid_max_size").bind Json.uint64?
    isa := ← (field "isa").bind Json.text? }

end AgentInfo

namespace RegionInfo

/-- The fields of a region in order. -/
def fieldNames : List String :=
  ["name", "segment", "flags", "alloc_allowed", "max_allocation", "granule", "alignment",
    "capacity"]

/-- The members of a region's object. -/
def members (r : RegionInfo) : List (String × Json) :=
  [("name", .ofString r.name), ("segment", .ofMember r.segment),
    ("flags", .ofString (Flags.text GlobalFlags.names r.flags.bits)),
    ("alloc_allowed", .bool r.allocAllowed), ("max_allocation", .ofUInt64 r.maxAllocation),
    ("granule", .ofUInt64 r.granule), ("alignment", .ofUInt64 r.alignment),
    ("capacity", .ofUInt64 r.capacity)]

/-- A region as a JSON object. -/
def toJson (r : RegionInfo) : Json :=
  .ofMembers r.members

/-- The region whose fields are given; `held` tells that they have been held as values. -/
def ofFields? (held : Bool) (field : String → Option Json) : Option RegionInfo := do
  let flags ← match field "flags" with
    | none => some 0
    | some j => j.text?.bind (Flags.ofText? GlobalFlags.names)
  some {
    name := ← (field "name").bind Json.text?
    segment := ← (field "segment").bind (Json.member? held)
    flags := ⟨flags⟩
    allocAllowed := ← (field "alloc_allowed").bind Json.bool?
    maxAllocation := ← (field "max_allocation").bind Json.uint64?
    granule := ← (field "granule").bind Json.uint64?
    alignment := ← (field "alignment").bind Json.uint64?
    capacity := ← (field "capacity").bind Json.uint64? }

/-- The region that a tree describes. -/
def ofJson? (j : Json) : Option RegionInfo := do
  ofFields? false (← j.record? fieldNames)

end RegionInfo

namespace RegionConfig

/-- A region with its owners as one JSON object. -/
def toJson (r : RegionConfig) : Json :=
  .ofMembers (r.info.members ++ [("owners", .array (r.owners.map Json.ofString))])

/-- Containers that may be open around and in any value that is held. -/
def depthLimit : Nat := 127

/-- The region with owners that an object describes, with `depth` containers open around its
members. All members but the owners are held as values. -/
def ofJson? (depth : Nat) : Json → Option RegionConfig
  | j@(.object members) => do
    let field ← j.record? ("owners" :: RegionInfo.fieldNames)
    guard (members.all fun m => m.1 == some "owners" || m.2.fits (depthLimit - depth))
    some {
      info := ← RegionInfo.ofFields? true field
      owners := ← (field "owners").bind (Json.list? Json.text?) }
  | _ => none

end RegionConfig

namespace Config

/-- The fields of a configuration in order. -/
def fieldNames : List String :=
  ["agents", "regions", "soft_queue_capacity", "worker_threads", "processor_poll_us"]

/-- A configuration as a JSON object. -/
def toJson (c : Config) : Json :=
  .ofMembers
    [("agents", .array (c.agents.map AgentInfo.toJson)),
      ("regions", .array (c.regions.map RegionConfig.toJson)),
      ("soft_queue_capacity", .ofUInt32 c.softQueueCapacity),
      ("worker_threads", .ofUInt64 c.workerThreads),
      ("processor_poll_us", .ofUInt64 c.processorPollUs)]

/-- The configuration that a tree describes, valid or not. -/
def ofJson? (j : Json) : Option Config := do
  let field ← j.record? fieldNames
  let workerThreads ← match field "worker_threads" with
    | none => some 0
    | some j => j.uint64?
  some {
    agents := ← (field "agents").bind (Json.list? AgentInfo.ofJson?)
    regions := ← (field "regions").bind (Json.list? (RegionConfig.ofJson? 3))
    softQueueCapacity := ← (field "soft_queue_capacity").bind Json.uint32?
    workerThreads
    processorPollUs := ← (field "processor_poll_us").bind Json.uint64? }

/-- The configuration in which the members of an object stand in place of its own. -/
def override? (c : Config) (changes : Json) : Option Config :=
  match c.toJson, changes with
  | .object members, .object changed =>
    let kept := members.filter fun m => !(changed.any fun change => change.1 == m.1)
    ofJson? (.object (kept ++ changed))
  | _, _ => none

end Config

end Accelerator
