import LayerPipeline.Hardware.Device

/-!
# Nodes

A node as the planner sees it, and the description by which a node introduces itself.
-/

namespace LayerPipeline

/-- One host of the roster. -/
structure Node (α : Type) where
  nodeId : String
  kind : DeviceKind
  computeScore : α
  vramGb : α
  ramGb : α
  memoryBandwidthGbs : α
  /-- Round trip to the coordinator. -/
  latencyMs : α
  bandwidthMbps : α
  supportsFp16 : Bool
  /-- Share of the memory and compute in use; from 1 on the node is saturated. -/
  utilization : α
  /-- Where the node serves stages; `none` for the local node. -/
  address : Option String
deriving DecidableEq, Inhabited

namespace Node

variable {α : Type} [Scalar α]

/-- A node about which only kind and throughput are known. -/
def basic (id : String) (kind : DeviceKind) (score : α) : Node α where
  nodeId := id
  kind := kind
  computeScore := score
  vramGb := 0.0
  ramGb := 0.0
  memoryBandwidthGbs := 100.0
  latencyMs := 0.5
  bandwidthMbps := 10000.0
  supportsFp16 := kind.isGpu
  utilization := 0.0
  address := none

/-- Sets the video memory, at least zero. -/
def withVram (n : Node α) (gb : α) : Node α := { n with vramGb := max gb 0.0 }

/-- Sets the main memory, at least zero. -/
def withRam (n : Node α) (gb : α) : Node α := { n with ramGb := max gb 0.0 }

/-- Memory that the node's stages execute in: video memory on accelerators and main memory on
processors, or the other pool when that one is not reported. -/
def capacityGb (n : Node α) : α :=
  let preferred := if n.kind.isGpu then n.vramGb else n.ramGb
  let fallback := if n.kind.isGpu then n.ramGb else n.vramGb
  if (0.0 : α) < preferred then preferred else fallback

/-- The part of the capacity that is not in use. -/
def availableGb (n : Node α) : α :=
  n.capacityGb * max (1.0 - n.utilization) 0.0

/-- Whether a stage of the given size fits. -/
def canFit (n : Node α) (memoryMb : α) : Bool :=
  memoryMb / 1024.0 ≤ n.availableGb

/-- Whether the node has no capacity left. -/
def isSaturated (n : Node α) : Bool :=
  (1.0 : α) ≤ n.utilization

/-- The node as a device. -/
def toCapability (n : Node α) : Capability α :=
  { (Capability.basic n.nodeId n.kind).withMemory n.capacityGb n.availableGb with
    deviceName := n.nodeId
    computeScore := n.computeScore
    hasFp16 := n.supportsFp16
    load := n.utilization
    bandwidthMbps := n.bandwidthMbps
    latencyMs := n.latencyMs }

/-- The fields of a node. -/
def layout : Layout (Node α)
    (String × DeviceKind × α × α × α × α × α × α × Bool × α × Option String × Unit) where
  split n := (n.nodeId, n.kind, n.computeScore, n.vramGb, n.ramGb, n.memoryBandwidthGbs,
    n.latencyMs, n.bandwidthMbps, n.supportsFp16, n.utilization, n.address, ())
  join := fun (a, b, c, d, e, f, g, h, i, j, k, _) => ⟨a, b, c, d, e, f, g, h, i, j, k⟩

instance [JsonCodec α] : JsonCodec (Node α) :=
  .record layout false <| .field "node_id" <| .field "device_type" <| .field "compute_score" <|
    .field "vram_gb" <| .field "ram_gb" <| .field "memory_bandwidth_gbs" <|
    .field "network_latency_ms" <| .field "bandwidth_mbps" <| .field "supports_fp16" <|
    .field "current_utilization" <| .optional "address" .done

instance [Wire α] : Wire (Node α) := Wire.record layout

end Node

/-- How a node introduces itself when it registers or is listed for planning. -/
structure Descriptor (α : Type) where
  nodeId : String
  kind : DeviceKind
  computeScore : α
  vramGb : Option α
  ramGb : Option α
  latencyMs : α
  bandwidthMbps : Option α
  supportsFp16 : Option Bool
  address : String
deriving DecidableEq, Inhabited

/-- What is wrong with a descriptor. -/
inductive DescriptorFault (α : Type) where
  | emptyId
  | scoreNotPositive (node : String) (score : α)
  | noMemory (node : String)

/-- The fault in words. -/
def DescriptorFault.reason {α : Type} [Scalar α] : DescriptorFault α → String
  | .emptyId => "empty node_id"
  | .scoreNotPositive node score =>
    "node " ++ node ++ ": compute_score must be positive, got " ++ Scalar.shortest score
  | .noMemory node => "node " ++ node ++ ": no memory reported"

namespace Descriptor

variable {α : Type} [Scalar α]

/-- The first fault of a descriptor. -/
def fault? (d : Descriptor α) : Option (DescriptorFault α) :=
  if d.nodeId.isEmpty then some .emptyId
  else if !decide ((0.0 : α) < d.computeScore) then some (.scoreNotPositive d.nodeId d.computeScore)
  else if d.vramGb.getD 0.0 ≤ 0.0 && d.ramGb.getD 0.0 ≤ 0.0 then some (.noMemory d.nodeId)
  else none

/-- Refuses descriptors that nothing can be planned with. -/
def validate (d : Descriptor α) : Except DataError Unit :=
  match d.fault? with
  | some f => .error (.invalidDescriptor f.reason)
  | none => .ok ()

/-- The planner's view of the described node, idle. -/
def toNode (d : Descriptor α) : Node α :=
  let n := ((Node.basic d.nodeId d.kind d.computeScore).withVram (d.vramGb.getD 0.0)).withRam
    (d.ramGb.getD 0.0)
  { n with
    latencyMs := d.latencyMs
    bandwidthMbps := d.bandwidthMbps.getD n.bandwidthMbps
    supportsFp16 := d.supportsFp16.getD n.supportsFp16
    address := some d.address }

/-- The fields of a descriptor. -/
def layout : Layout (Descriptor α)
    (String × DeviceKind × α × Option α × Option α × α × Option α × Option Bool × String × Unit)
    where
  split d := (d.nodeId, d.kind, d.computeScore, d.vramGb, d.ramGb, d.latencyMs, d.bandwidthMbps,
    d.supportsFp16, d.address, ())
  join := fun (a, b, c, d, e, f, g, h, i, _) => ⟨a, b, c, d, e, f, g, h, i⟩

instance [JsonCodec α] : JsonCodec (Descriptor α) :=
  .record layout true <| .field "node_id" <| .field "device_type" <| .field "compute_score" <|
    .default "vram_gb" none <| .default "ram_gb" none <| .default "network_latency_ms" 0.5 <|
    .default "bandwidth_mbps" none <| .default "supports_fp16" none <| .field "address" .done

instance [Wire α] : Wire (Descriptor α) := Wire.record layout

end Descriptor

end LayerPipeline
