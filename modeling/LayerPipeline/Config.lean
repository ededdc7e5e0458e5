import LayerPipeline.Hardware.Device
import LayerPipeline.Plan.Basic

/-!
# Configuration

Settings of the parts of a node. Every record has usable defaults; a document may give any part of
it, and what is missing keeps its default.
-/

namespace LayerPipeline

variable {α : Type}

/-- Weights of the matcher. -/
structure MatcherConfig (α : Type) where
  /-- Weight of the latency score under the balanced strategy. -/
  latencyWeight : α
  /-- Weight of the headroom score under the balanced strategy. -/
  memoryWeight : α
  /-- Work that an idle device of score 1 completes in a millisecond. -/
  unitsPerMs : α
deriving DecidableEq, Inhabited

namespace MatcherConfig

/-- Both scores count the same. -/
def standard [Scalar α] : MatcherConfig α := ⟨0.5, 0.5, 10.0⟩

/-- The fields of the settings. -/
def layout : Layout (MatcherConfig α) (α × α × α × Unit) where
  split c := (c.latencyWeight, c.memoryWeight, c.unitsPerMs, ())
  join := fun (a, b, c, _) => ⟨a, b, c⟩

instance [Scalar α] [JsonCodec α] : JsonCodec (MatcherConfig α) :=
  let d : MatcherConfig α := standard
  .record layout false <| .default "latency_weight" d.latencyWeight <|
    .default "memory_weight" d.memoryWeight <| .default "compute_units_per_ms" d.unitsPerMs .done

end MatcherConfig

/-- Settings of the planner. -/
structure PlannerConfig (α : Type) where
  /-- Score of the device that the layer costs were measured on. -/
  referenceScore : α
  maxStages : UInt64
  /-- Size of a hand-off between stages. -/
  activationMb : α
  /-- Memory utilisation from which on a bottleneck is bound by memory. -/
  memoryPressure : α
  /-- Memory utilisation below which a stage underuses its node. -/
  underutilization : α
  /-- Balance below which an imbalance is reported. -/
  imbalance : α
deriving DecidableEq, Inhabited

namespace PlannerConfig

/-- At most eight stages, and hand-offs of four megabytes. -/
def standard [Scalar α] : PlannerConfig α := ⟨100.0, 8, 4.0, 0.9, 0.25, 0.7⟩

/-- The fields of the settings. -/
def layout : Layout (PlannerConfig α) (α × UInt64 × α × α × α × α × Unit) where
  split c := (c.referenceScore, c.maxStages, c.activationMb, c.memoryPressure, c.underutilization,
    c.imbalance, ())
  join := fun (a, b, c, d, e, f, _) => ⟨a, b, c, d, e, f⟩

instance [Scalar α] [JsonCodec α] : JsonCodec (PlannerConfig α) :=
  let d : PlannerConfig α := standard
  .record layout false <| .default "reference_compute_score" d.referenceScore <|
    .default "max_stages" d.maxStages <| .default "activation_size_mb" d.activationMb <|
    .default "memory_pressure_threshold" d.memoryPressure <|
    .default "underutilization_threshold" d.underutilization <|
    .default "imbalance_threshold" d.imbalance .done

end PlannerConfig

/-- Settings of calls to other nodes. -/
structure LinkConfig where
  /-- Deadline of one call, from connecting to the response. -/
  callTimeoutMs : UInt64
  /-- Larger frames are refused. -/
  maxFrameBytes : UInt64
  /-- Further attempts after a failed connection. -/
  maxRetries : UInt32
  /-- Pause before the first further attempt; it doubles from one to the next. -/
  retryBackoffMs : UInt64
deriving DecidableEq, Inhabited

namespace LinkConfig

/-- Five seconds, 128 MiB, two further attempts. -/
def standard : LinkConfig := ⟨5000, 134217728, 2, 100⟩

/-- The fields of the settings. -/
def layout : Layout LinkConfig (UInt64 × UInt64 × UInt32 × UInt64 × Unit) where
  split c := (c.callTimeoutMs, c.maxFrameBytes, c.maxRetries, c.retryBackoffMs, ())
  join := fun (a, b, c, d, _) => ⟨a, b, c, d⟩

instance : JsonCodec LinkConfig :=
  .record layout false <| .default "call_timeout_ms" standard.callTimeoutMs <|
    .default "max_frame_bytes" standard.maxFrameBytes <|
    .default "max_retries" standard.maxRetries <|
    .default "retry_backoff_ms" standard.retryBackoffMs .done

end LinkConfig

/-- What a node says about itself in place of what its host reports. -/
structure LocalNodeConfig (α : Type) where
  nodeId : String
  kind : Option DeviceKind
  computeScore : Option α
  memoryGb : Option α
  hasFp16 : Option Bool
  bandwidthMbps : α
deriving DecidableEq, Inhabited

namespace LocalNodeConfig

/-- Everything is taken from the host. -/
def standard [Scalar α] (id : String) : LocalNodeConfig α := ⟨id, none, none, none, none, 1000.0⟩

/-- The fields of the settings. -/
def layout : Layout (LocalNodeConfig α)
    (String × Option DeviceKind × Option α × Option α × Option Bool × α × Unit) where
  split c := (c.nodeId, c.kind, c.computeScore, c.memoryGb, c.hasFp16, c.bandwidthMbps, ())
  join := fun (a, b, c, d, e, f, _) => ⟨a, b, c, d, e, f⟩

instance [Scalar α] [JsonCodec α] : JsonCodec (LocalNodeConfig α) :=
  .record layout false <| .default "node_id" "" <| .default "device_type" none <|
    .default "compute_score" none <| .default "memory_gb" none <| .default "has_fp16" none <|
    .default "bandwidth_mbps" 1000.0 .done

end LocalNodeConfig

/-- Settings of a coordinator. -/
structure CoordinatorConfig (α : Type) where
  listenAddress : String
  node : LocalNodeConfig α
  /-- Whether the coordinator offers its own host to the planner and runs stages itself. -/
  participate : Bool
  modelName : String
  defaultStrategy : Strategy
  /-- Profile to plan with; without one the demonstration profile is used. -/
  profilePath : Option String
  heartbeatIntervalSecs : UInt64
  /-- Intervals without a heartbeat after which a worker counts as lost. -/
  heartbeatTimeoutFactor : UInt32
  /-- Sessions idle for longer are closed. -/
  sessionTimeoutSecs : UInt64
  maxMetricsRecords : UInt64
  link : LinkConfig
  planner : PlannerConfig α
  matcher : MatcherConfig α
deriving DecidableEq, Inhabited

namespace CoordinatorConfig

/-- The defaults. -/
def standard [Scalar α] : CoordinatorConfig α where
  listenAddress := "0.0.0.0:8081"
  node := .standard "coordinator"
  participate := true
  modelName := "model"
  defaultStrategy := .balanced
  profilePath := none
  heartbeatIntervalSecs := 5
  heartbeatTimeoutFactor := 3
  sessionTimeoutSecs := 300
  maxMetricsRecords := 10000
  link := .standard
  planner := .standard
  matcher := .standard

/-- The fields of the settings. -/
def layout : Layout (CoordinatorConfig α)
    (String × LocalNodeConfig α × Bool × String × Strategy × Option String × UInt64 × UInt32 ×
      UInt64 × UInt64 × LinkConfig × PlannerConfig α × MatcherConfig α × Unit) where
  split c := (c.listenAddress, c.node, c.participate, c.modelName, c.defaultStrategy,
    c.profilePath, c.heartbeatIntervalSecs, c.heartbeatTimeoutFactor, c.sessionTimeoutSecs,
    c.maxMetricsRecords, c.link, c.planner, c.matcher, ())
  join := fun (a, b, c, d, e, f, g, h, i, j, k, l, m, _) => ⟨a, b, c, d, e, f, g, h, i, j, k, l, m⟩

instance [Scalar α] [JsonCodec α] : JsonCodec (CoordinatorConfig α) :=
  let d : CoordinatorConfig α := standard
  .record layout false <| .default "listen_addr" d.listenAddress <| .default "node" d.node <|
    .default "participate" d.participate <| .default "model_name" d.modelName <|
    .default "default_strategy" d.defaultStrategy <| .default "profile_path" d.profilePath <|
    .default "heartbeat_interval_secs" d.heartbeatIntervalSecs <|
    .default "heartbeat_timeout_factor" d.heartbeatTimeoutFactor <|
    .default "session_timeout_secs" d.sessionTimeoutSecs <|
    .default "max_metrics_records" d.maxMetricsRecords <| .default "net" d.link <|
    .default "planner" d.planner <| .default "matcher" d.matcher .done

end CoordinatorConfig

/-- Settings of a worker. -/
structure WorkerConfig (α : Type) where
  listenAddress : String
  /-- Where the coordinator should call; the listening address by default. -/
  advertiseAddress : Option String
  /-- Coordinator to register with and to push metrics to. -/
  coordinatorAddress : Option String
  node : LocalNodeConfig α
  maxSessions : UInt32
  heartbeatIntervalSecs : UInt64
  /-- Sessions idle for longer are dropped. -/
  sessionTimeoutSecs : UInt64
  pushMetrics : Bool
  link : LinkConfig
deriving DecidableEq, Inhabited

namespace WorkerConfig

/-- The defaults. -/
def standard [Scalar α] : WorkerConfig α where
  listenAddress := "0.0.0.0:8082"
  advertiseAddress := none
  coordinatorAddress := none
  node := .standard "worker"
  maxSessions := 10
  heartbeatIntervalSecs := 5
  sessionTimeoutSecs := 300
  pushMetrics := true
  link := .standard

/-- The fields of the settings. -/
def layout : Layout (WorkerConfig α)
    (String × Option String × Option String × LocalNodeConfig α × UInt32 × UInt64 × UInt64 × Bool ×
      LinkConfig × Unit) where
  split c := (c.listenAddress, c.advertiseAddress, c.coordinatorAddress, c.node, c.maxSessions,
    c.heartbeatIntervalSecs, c.sessionTimeoutSecs, c.pushMetrics, c.link, ())
  join := fun (a, b, c, d, e, f, g, h, i, _) => ⟨a, b, c, d, e, f, g, h, i⟩

instance [Scalar α] [JsonCodec α] : JsonCodec (WorkerConfig α) :=
  let d : WorkerConfig α := standard
  .record layout false <| .default "listen_addr" d.listenAddress <|
    .default "advertise_addr" d.advertiseAddress <|
    .default "coordinator_addr" d.coordinatorAddress <| .default "node" d.node <|
    .default "max_concurrent_sessions" d.maxSessions <|
    .default "heartbeat_interval_secs" d.heartbeatIntervalSecs <|
    .default "session_timeout_secs" d.sessionTimeoutSecs <|
    .default "push_metrics" d.pushMetrics <| .default "net" d.link .done

end WorkerConfig

end LayerPipeline
