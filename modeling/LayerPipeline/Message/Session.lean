import LayerPipeline.Hardware.Device
import LayerPipeline.Tensor

/-!
# Messages about sessions and forward passes
-/

namespace LayerPipeline

/-- The stage that a session is bound to on a node. -/
structure StageBinding where
  stageId : String
  stageIndex : UInt32
  device : String
  enableCache : Bool
deriving DecidableEq, Inhabited

namespace StageBinding

/-- The fields in declaration order. -/
def layout : Layout StageBinding (String × UInt32 × String × Bool × Unit) where
  split r := (r.stageId, r.stageIndex, r.device, r.enableCache, ())
  join := fun (a, b, c, d, _) => ⟨a, b, c, d⟩

instance : JsonCodec StageBinding :=
  .record layout true <| .field "stage_id" <| .field "stage_index" <| .field "device" <|
    .default "enable_kv_cache" false .done

instance : Wire StageBinding := Wire.record layout

end StageBinding

/-- A node as it shows itself to the owner of a session. -/
structure NodeInfo (α : Type) where
  nodeId : String
  kind : DeviceKind
  availableGb : α
  /-- Open sessions over the most that may be open. -/
  loadFactor : α
  nodeVersion : String
deriving DecidableEq, Inhabited

namespace NodeInfo

variable {α : Type}

/-- The fields in declaration order. -/
def layout : Layout (NodeInfo α) (String × DeviceKind × α × α × String × Unit) where
  split r := (r.nodeId, r.kind, r.availableGb, r.loadFactor, r.nodeVersion, ())
  join := fun (a, b, c, d, e, _) => ⟨a, b, c, d, e⟩

instance [JsonCodec α] : JsonCodec (NodeInfo α) :=
  .record layout true <| .field "node_id" <| .field "device_type" <|
    .field "available_memory_gb" <| .field "load_factor" <| .field "node_version" .done

instance [Wire α] : Wire (NodeInfo α) := Wire.record layout

end NodeInfo

/-- How one stage was executed. -/
structure ExecutionReport (α : Type) where
  forwardMs : α
  transferMs : α
  peakMemoryMb : α
  device : String
  stageIndex : UInt32
deriving DecidableEq, Inhabited

namespace ExecutionReport

variable {α : Type}

/-- The fields in declaration order. -/
def layout : Layout (ExecutionReport α) (α × α × α × String × UInt32 × Unit) where
  split r := (r.forwardMs, r.transferMs, r.peakMemoryMb, r.device, r.stageIndex, ())
  join := fun (a, b, c, d, e, _) => ⟨a, b, c, d, e⟩

instance [JsonCodec α] : JsonCodec (ExecutionReport α) :=
  .record layout true <| .field "forward_latency_ms" <| .field "transfer_latency_ms" <|
    .field "peak_memory_mb" <| .field "device" <| .field "stage_index" .done

instance [Wire α] : Wire (ExecutionReport α) := Wire.record layout

end ExecutionReport

/-- Asks for a session. -/
structure CreateSession where
  /-- Empty when the receiver is to choose one. -/
  sessionId : String
  stage : StageBinding
  layerNames : List String
  maxSequenceLength : UInt32
  dtype : Dtype
deriving DecidableEq, Inhabited

namespace CreateSession

/-- The fields in declaration order. -/
def layout : Layout CreateSession
    (String × StageBinding × List String × UInt32 × Dtype × Unit) where
  split r := (r.sessionId, r.stage, r.layerNames, r.maxSequenceLength, r.dtype, ())
  join := fun (a, b, c, d, e, _) => ⟨a, b, c, d, e⟩

instance : JsonCodec CreateSession :=
  .record layout true <| .field "session_id" <| .field "stage_config" <| .field "layer_names" <|
    .field "max_sequence_length" <| .field "dtype" .done

instance : Wire CreateSession := Wire.record layout

end CreateSession

/-- Answer to a request for a session. -/
structure SessionCreated (α : Type) where
  success : Bool
  sessionId : String
  errorMessage : Option String
  nodeInfo : NodeInfo α
deriving DecidableEq, Inhabited

namespace SessionCreated

variable {α : Type}

/-- The fields in declaration order. -/
def layout : Layout (SessionCreated α) (Bool × String × Option String × NodeInfo α × Unit) where
  split r := (r.success, r.sessionId, r.errorMessage, r.nodeInfo, ())
  join := fun (a, b, c, d, _) => ⟨a, b, c, d⟩

instance [JsonCodec α] : JsonCodec (SessionCreated α) :=
  .record layout true <| .field "success" <| .field "session_id" <| .optional "error_message" <|
    .field "node_info" .done

instance [Wire α] : Wire (SessionCreated α) := Wire.record layout

end SessionCreated

/-- Asks for one forward pass of a session. -/
structure ExecuteForward where
  sessionId : String
  tokenIndex : UInt64
  input : Tensor
  /-- Stages to run; none means all of the session. -/
  stageIds : List String
deriving DecidableEq, Inhabited

namespace ExecuteForward

/-- The fields in declaration order. -/
def layout : Layout ExecuteForward (String × UInt64 × Tensor × List String × Unit) where
  split r := (r.sessionId, r.tokenIndex, r.input, r.stageIds, ())
  join := fun (a, b, c, d, _) => ⟨a, b, c, d⟩

instance : JsonCodec ExecuteForward :=
  .record layout true <| .field "session_id" <| .field "token_index" <|
    .field "input_activations" <| .default "stage_ids" [] .done

instance : Wire ExecuteForward := Wire.record layout

end ExecuteForward

/-- Answer to a forward pass. -/
structure ForwardResult (α : Type) where
  success : Bool
  errorMessage : Option String
  output : Option Tensor
  report : ExecutionReport α
deriving DecidableEq, Inhabited

namespace ForwardResult

variable {α : Type}

/-- The fields in declaration order. -/
def layout : Layout (ForwardResult α)
    (Bool × Option String × Option Tensor × ExecutionReport α × Unit) where
  split r := (r.success, r.errorMessage, r.output, r.report, ())
  join := fun (a, b, c, d, _) => ⟨a, b, c, d⟩

instance [JsonCodec α] : JsonCodec (ForwardResult α) :=
  .record layout true <| .field "success" <| .optional "error_message" <|
    .optional "output_activations" <| .field "metadata" .done

instance [Wire α] : Wire (ForwardResult α) := Wire.record layout

end ForwardResult

/-- Asks to close a session. -/
structure CloseSession where
  sessionId : String
deriving DecidableEq, Inhabited

namespace CloseSession

/-- The fields in declaration order. -/
def layout : Layout CloseSession (String × Unit) where
  split r := (r.sessionId, ())
  join := fun (a, _) => ⟨a⟩

instance : JsonCodec CloseSession :=
  .record layout true <| .field "session_id" .done

instance : Wire CloseSession := Wire.record layout

end CloseSession

/-- Answer to a request to close a session. -/
structure SessionClosed where
  success : Bool
  errorMessage : Option String
deriving DecidableEq, Inhabited

namespace SessionClosed

/-- The fields in declaration order. -/
def layout : Layout SessionClosed (Bool × Option String × Unit) where
  split r := (r.success, r.errorMessage, ())
  join := fun (a, b, _) => ⟨a, b⟩

instance : JsonCodec SessionClosed :=
  .record layout true <| .field "success" <| .optional "error_message" .done

instance : Wire SessionClosed := Wire.record layout

end SessionClosed

/-- Asks for one pass through one stage outside of any session. -/
structure StageForward where
  sessionId : String
  tokenIndex : UInt64
  stageId : UInt32
  activations : Tensor
  /-- Where to push the report, if anywhere. -/
  metricsUrl : Option String
deriving DecidableEq, Inhabited

namespace StageForward

/-- The fields in declaration order. -/
def layout : Layout StageForward (String × UInt64 × UInt32 × Tensor × Option String × Unit) where
  split r := (r.sessionId, r.tokenIndex, r.stageId, r.activations, r.metricsUrl, ())
  join := fun (a, b, c, d, e, _) => ⟨a, b, c, d, e⟩

instance : JsonCodec StageForward :=
  .record layout true <| .field "session_id" <| .field "token_index" <| .field "stage_id" <|
    .field "activations" <| .default "metrics_url" none .done

instance : Wire StageForward := Wire.record layout

end StageForward

/-- Cost of one pass through one stage. -/
structure StagePerformance (α : Type) where
  forwardMs : α
  peakMemoryMb : α
deriving DecidableEq, Inhabited

namespace StagePerformance

variable {α : Type}

/-- The fields in declaration order. -/
def layout : Layout (StagePerformance α) (α × α × Unit) where
  split r := (r.forwardMs, r.peakMemoryMb, ())
  join := fun (a, b, _) => ⟨a, b⟩

instance [JsonCodec α] : JsonCodec (StagePerformance α) :=
  .record layout true <| .field "forward_latency_ms" <| .field "peak_memory_mb" .done

instance [Wire α] : Wire (StagePerformance α) := Wire.record layout

end StagePerformance

/-- Answer to a pass through one stage. -/
structure StageForwarded (α : Type) where
  success : Bool
  errorMessage : Option String
  output : Option Tensor
  performance : StagePerformance α
deriving DecidableEq, Inhabited

namespace StageForwarded

variable {α : Type}

/-- The fields in declaration order. -/
def layout : Layout (StageForwarded α)
    (Bool × Option String × Option Tensor × StagePerformance α × Unit) where
  split r := (r.success, r.errorMessage, r.output, r.performance, ())
  join := fun (a, b, c, d, _) => ⟨a, b, c, d⟩

instance [JsonCodec α] : JsonCodec (StageForwarded α) :=
  .record layout true <| .field "success" <| .optional "error_message" <|
    .optional "output_activations" <| .field "performance" .done

instance [Wire α] : Wire (StageForwarded α) := Wire.record layout

end StageForwarded

/-- The report of a pass that did not happen. -/
def ExecutionReport.empty {α : Type} [Scalar α] : ExecutionReport α := ⟨0.0, 0.0, 0.0, "", 0⟩

/-- The answer to a failed pass. -/
def ForwardResult.failure {α : Type} [Scalar α] (reason : String) : ForwardResult α :=
  ⟨false, some reason, none, .empty⟩

end LayerPipeline
