import LayerPipeline.Error.Data
import LayerPipeline.Json.Codec
import LayerPipeline.Layer.Requirement
import LayerPipeline.Number.Scalar
import LayerPipeline.Wire.Codec

/-!
# Compute devices

The kind of a device, and the record of what one device offers.
-/

namespace LayerPipeline

/-- Class of compute device. -/
inductive DeviceKind where
  | cpu
  | gpu
  | integratedGpu
deriving DecidableEq, Inhabited

namespace DeviceKind

/-- All kinds, in the order of their binary codes. -/
def all : List DeviceKind := [.cpu, .gpu, .integratedGpu]

/-- The name of a kind. -/
def name : DeviceKind → String
  | .cpu => "cpu"
  | .gpu => "gpu"
  | .integratedGpu => "igpu"

/-- Every accepted spelling. -/
def spellings : List (String × DeviceKind) :=
  [("cpu", .cpu), ("gpu", .gpu), ("cuda", .gpu), ("igpu", .integratedGpu),
    ("cuda_integrated", .integratedGpu)]

/-- Rank in the planner's order: discrete before integrated accelerators before processors. -/
def priority : DeviceKind → Nat
  | .gpu => 3
  | .integratedGpu => 2
  | .cpu => 1

/-- Whether the kind executes in video memory. -/
def isGpu : DeviceKind → Bool
  | .cpu => false
  | _ => true

/-- The kind with a given spelling, in letters of either case. -/
def ofName (text : String) : Except DataError DeviceKind :=
  let lower := text.map Char.toLower
  match spellings.lookup lower with
  | some k => .ok k
  | none => .error (.unknownDeviceKind lower)

instance : JsonCodec DeviceKind := ⟨fun k => .str k.name, JsonCodec.ofTag spellings⟩

instance : Wire DeviceKind := Wire.enumeration all

end DeviceKind

/-- What one registered device offers and how busy it is. -/
structure Capability (α : Type) where
  deviceId : String
  kind : DeviceKind
  deviceName : String
  /-- Relative throughput. -/
  computeScore : α
  memoryGb : α
  availableGb : α
  hasFp16 : Bool
  hasInt8 : Bool
  bandwidthMbps : α
  /-- Round trip to the coordinator. -/
  latencyMs : α
  /-- Share of the device in use; from 1 on the device is saturated. -/
  load : α
deriving DecidableEq, Inhabited

namespace Capability

variable {α : Type} [Scalar α]

/-- A device about which nothing else is known. -/
def basic (id : String) (kind : DeviceKind) : Capability α where
  deviceId := id
  kind := kind
  deviceName := "unknown"
  computeScore := 1.0
  memoryGb := 0.0
  availableGb := 0.0
  hasFp16 := false
  hasInt8 := false
  bandwidthMbps := 1000.0
  latencyMs := 1.0
  load := 0.0

/-- Sets total and available memory. The total is at least zero, and the available memory lies
between zero and the total. -/
def withMemory (c : Capability α) (totalGb availableGb : α) : Capability α :=
  let total := max totalGb 0.0
  { c with memoryGb := total, availableGb := Scalar.clamp availableGb 0.0 total }

/-- Whether a layer may be placed here: enough memory, and half precision where it is needed. -/
def suits (c : Capability α) (r : Requirement α) : Bool :=
  !decide (c.availableGb < r.memoryGb) && (!r.requiresFp16 || c.hasFp16)

/-- Whether the device has no capacity left. -/
def isSaturated (c : Capability α) : Bool :=
  (1.0 : α) ≤ c.load

/-- Time of a piece of work that takes `baselineMs` on an idle device of score 1. -/
def executionTime (c : Capability α) (baselineMs : α) : Except DataError α :=
  let effective := c.computeScore * (1.0 - c.load)
  if c.isSaturated || effective ≤ 0.0 then .error (.saturated c.deviceId (Scalar.fixed 2 c.load))
  else .ok (baselineMs / effective)

/-- Memory left after placing a layer. -/
def headroomGb (c : Capability α) (r : Requirement α) : α :=
  c.availableGb - r.memoryGb

/-- The fields of a capability. -/
def layout : Layout (Capability α)
    (String × DeviceKind × String × α × α × α × Bool × Bool × α × α × α × Unit) where
  split c := (c.deviceId, c.kind, c.deviceName, c.computeScore, c.memoryGb, c.availableGb,
    c.hasFp16, c.hasInt8, c.bandwidthMbps, c.latencyMs, c.load, ())
  join := fun (a, b, c, d, e, f, g, h, i, j, k, _) => ⟨a, b, c, d, e, f, g, h, i, j, k⟩

instance [JsonCodec α] : JsonCodec (Capability α) :=
  .record layout false <| .field "device_id" <| .field "device_type" <| .field "device_name" <|
    .field "compute_score" <| .field "memory_gb" <| .field "available_memory_gb" <|
    .field "has_fp16" <| .field "has_int8" <| .field "network_bandwidth_mbps" <|
    .field "latency_to_coordinator_ms" <| .field "current_load" .done

end Capability

/-- Aggregate over a list of devices. -/
structure DeviceSummary (α : Type) where
  totalDevices : UInt64
  /-- How many devices there are of each kind. -/
  byKind : Dictionary UInt64
  totalMemoryGb : α
  availableGb : α
  averageScore : α
deriving DecidableEq, Inhabited

namespace DeviceSummary

variable {α : Type}

/-- The fields of a summary. -/
def layout : Layout (DeviceSummary α) (UInt64 × Dictionary UInt64 × α × α × α × Unit) where
  split s := (s.totalDevices, s.byKind, s.totalMemoryGb, s.availableGb, s.averageScore, ())
  join := fun (a, b, c, d, e, _) => ⟨a, b, c, d, e⟩

instance [JsonCodec α] : JsonCodec (DeviceSummary α) :=
  .record layout false <| .field "total_devices" <| .field "by_type" <|
    .field "total_memory_gb" <| .field "available_memory_gb" <| .field "avg_compute_score" .done

instance [Wire α] : Wire (DeviceSummary α) := Wire.record layout

end DeviceSummary

end LayerPipeline
