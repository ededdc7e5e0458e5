import LayerPipeline.Hardware.Node
import LayerPipeline.Tensor

/-!
# Messages about nodes and their state
-/

namespace LayerPipeline

/-- What a node is in the pipeline. -/
inductive NodeRole where
  | coordinator
  | worker
deriving DecidableEq, Inhabited

namespace NodeRole

/-- All roles, in the order of their binary codes. -/
def all : List NodeRole := [.coordinator, .worker]

/-- The name of a role. -/
def name : NodeRole → String
  | .coordinator => "coordinator"
  | .worker => "worker"

instance : JsonCodec NodeRole :=
  ⟨fun r => .str r.name, JsonCodec.ofTag (all.map fun r => (r.name, r))⟩

instance : Wire NodeRole := Wire.enumeration all

end NodeRole

/-- Asks whether a node is there. -/
structure Ping where
  text : String
deriving DecidableEq, Inhabited

namespace Ping

/-- The fields in declaration order. -/
def layout : Layout Ping (String × Unit) where
  split r := (r.text, ())
  join := fun (a, _) => ⟨a⟩

instance : JsonCodec Ping :=
  .record layout true <| .field "message" .done

instance : Wire Ping := Wire.record layout

end Ping

/-- Answer to a ping. -/
structure Pong where
  text : String
  timestamp : String
  nodeVersion : String
deriving DecidableEq, Inhabited

namespace Pong

/-- The fields in declaration order. -/
def layout : Layout Pong (String × String × String × Unit) where
  split r := (r.text, r.timestamp, r.nodeVersion, ())
  join := fun (a, b, c, _) => ⟨a, b, c⟩

instance : JsonCodec Pong :=
  .record layout true <| .field "message" <| .field "timestamp" <| .field "node_version" .done

instance : Wire Pong := Wire.record layout

end Pong

/-- Asks a node what it offers. -/
structure CapabilityQuery where
  nodeId : String
deriving DecidableEq, Inhabited

namespace CapabilityQuery

/-- The fields in declaration order. -/
def layout : Layout CapabilityQuery (String × Unit) where
  split r := (r.nodeId, ())
  join := fun (a, _) => ⟨a⟩

instance : JsonCodec CapabilityQuery :=
  .record layout true <| .field "node_id" .done

instance : Wire CapabilityQuery := Wire.record layout

end CapabilityQuery

/-- The hardware of a node. -/
structure HardwareInfo (α : Type) where
  kind : DeviceKind
  deviceName : String
  totalMemoryGb : α
  computeCapability : String
  bandwidthMbps : α
deriving DecidableEq, Inhabited

namespace HardwareInfo

variable {α : Type}

/-- The fields in declaration order. -/
def layout : Layout (HardwareInfo α) (DeviceKind × String × α × String × α × Unit) where
  split r := (r.kind, r.deviceName, r.totalMemoryGb, r.computeCapability, r.bandwidthMbps, ())
  join := fun (a, b, c, d, e, _) => ⟨a, b, c, d, e⟩

instance [JsonCodec α] : JsonCodec (HardwareInfo α) :=
  .record layout true <| .field "device_type" <| .field "device_name" <|
    .field "total_memory_gb" <| .field "compute_capability" <|
    .field "network_bandwidth_mbps" .done

instance [Wire α] : Wire (HardwareInfo α) := Wire.record layout

end HardwareInfo

/-- What a node offers. -/
structure CapabilityReport (α : Type) where
  nodeId : String
  hardware : HardwareInfo α
  supportedDtypes : List Dtype
  availableGb : α
  bandwidthMbps : α
deriving DecidableEq, Inhabited

namespace CapabilityReport

variable {α : Type}

/-- The fields in declaration order. -/
def layout : Layout (CapabilityReport α)
    (String × HardwareInfo α × List Dtype × α × α × Unit) where
  split r := (r.nodeId, r.hardware, r.supportedDtypes, r.availableGb, r.bandwidthMbps, ())
  join := fun (a, b, c, d, e, _) => ⟨a, b, c, d, e⟩

instance [JsonCodec α] : JsonCodec (CapabilityReport α) :=
  .record layout true <| .field "node_id" <| .field "hardware" <| .field "supported_dtypes" <|
    .field "available_memory_gb" <| .field "bandwidth_mbps" .done

instance [Wire α] : Wire (CapabilityReport α) := Wire.record layout

end CapabilityReport

/-- State of a node in figures. -/
structure HealthReport (α : Type) where
  status : String
  role : NodeRole
  nodeId : String
  nodeVersion : String
  activeSessions : UInt32
  registeredWorkers : UInt32
  healthyWorkers : UInt32
  hasPlan : Bool
  totalRequests : UInt64
  averageForwardMs : α
  /-- The roster in brief; coordinators only. -/
  devices : Option (DeviceSummary α)
deriving DecidableEq, Inhabited

namespace HealthReport

variable {α : Type}

/-- The fields in declaration order. -/
def layout : Layout (HealthReport α)
    (String × NodeRole × String × String × UInt32 × UInt32 × UInt32 × Bool × UInt64 × α ×
      Option (DeviceSummary α) × Unit) where
  split r := (r.status, r.role, r.nodeId, r.nodeVersion, r.activeSessions, r.registeredWorkers,
    r.healthyWorkers, r.hasPlan, r.totalRequests, r.averageForwardMs, r.devices, ())
  join := fun (a, b, c, d, e, f, g, h, i, j, k, _) => ⟨a, b, c, d, e, f, g, h, i, j, k⟩

instance [JsonCodec α] : JsonCodec (HealthReport α) :=
  .record layout true <| .field "status" <| .field "role" <| .field "node_id" <|
    .field "node_version" <| .field "active_sessions" <| .field "registered_workers" <|
    .field "healthy_workers" <| .field "has_plan" <| .field "total_requests" <|
    .field "avg_forward_latency_ms" <| .optional "devices" .done

instance [Wire α] : Wire (HealthReport α) := Wire.record layout

end HealthReport

/-- A sign of life with the load of a worker. -/
structure Heartbeat (α : Type) where
  nodeId : String
  activeSessions : UInt32
  loadFactor : α
deriving DecidableEq, Inhabited

namespace Heartbeat

variable {α : Type}

/-- The fields in declaration order. -/
def layout : Layout (Heartbeat α) (String × UInt32 × α × Unit) where
  split r := (r.nodeId, r.activeSessions, r.loadFactor, ())
  join := fun (a, b, c, _) => ⟨a, b, c⟩

instance [JsonCodec α] : JsonCodec (Heartbeat α) :=
  .record layout true <| .field "node_id" <| .field "active_sessions" <|
    .field "load_factor" .done

instance [Wire α] : Wire (Heartbeat α) := Wire.record layout

end Heartbeat

/-- Answer to a heartbeat. -/
structure HeartbeatSeen where
  /-- When false, the worker has to register again. -/
  registered : Bool
deriving DecidableEq, Inhabited

namespace HeartbeatSeen

/-- The fields in declaration order. -/
def layout : Layout HeartbeatSeen (Bool × Unit) where
  split r := (r.registered, ())
  join := fun (a, _) => ⟨a⟩

instance : JsonCodec HeartbeatSeen :=
  .record layout true <| .field "registered" .done

instance : Wire HeartbeatSeen := Wire.record layout

end HeartbeatSeen

/-- Answer to the registration of a worker. -/
structure WorkerRegistered (α : Type) where
  registration : Descriptor α
  healthy : Bool
  text : String
deriving DecidableEq, Inhabited

namespace WorkerRegistered

variable {α : Type}

/-- The fields in declaration order. -/
def layout : Layout (WorkerRegistered α) (Descriptor α × Bool × String × Unit) where
  split r := (r.registration, r.healthy, r.text, ())
  join := fun (a, b, c, _) => ⟨a, b, c⟩

instance [Scalar α] [JsonCodec α] : JsonCodec (WorkerRegistered α) :=
  .record layout true <| .field "registration" <| .field "healthy" <| .field "message" .done

instance [Wire α] : Wire (WorkerRegistered α) := Wire.record layout

end WorkerRegistered

end LayerPipeline
