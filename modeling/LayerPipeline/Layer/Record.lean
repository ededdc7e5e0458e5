import LayerPipeline.Layer.Requirement

/-!
# Layer records

One observed execution of a layer, and the aggregate over all observed executions of it.
-/

namespace LayerPipeline

/-- One observed execution of one layer. The percentiles are filled only on the latest record of a
layer, once a batch of runs is complete. -/
structure LayerRecord (α : Type) where
  layerName : String
  layerType : String
  layerIndex : UInt64
  forwardLatencyMs : α
  p50LatencyMs : Option α
  p95LatencyMs : Option α
  p99LatencyMs : Option α
  vramBeforeMb : α
  vramAfterMb : α
  vramPeakMb : α
  vramIncreaseMb : α
  ramBeforeMb : α
  ramAfterMb : α
  ramIncreaseMb : α
  inputShapes : List (List UInt64)
  outputShapes : List (List UInt64)
  inputDtypes : List String
  outputDtypes : List String
  numParameters : UInt64
  parameterSizeMb : α
  attentionHeads : Option UInt32
  hiddenSize : Option UInt32
  device : String
  timestamp : String
  customMetrics : Dictionary α
deriving DecidableEq, Inhabited

namespace LayerRecord

variable {α : Type}

/-- A record in which nothing has been measured. -/
def basic [Scalar α] (name type : String) (index : UInt64) : LayerRecord α where
  layerName := name
  layerType := type
  layerIndex := index
  forwardLatencyMs := 0.0
  p50LatencyMs := none
  p95LatencyMs := none
  p99LatencyMs := none
  vramBeforeMb := 0.0
  vramAfterMb := 0.0
  vramPeakMb := 0.0
  vramIncreaseMb := 0.0
  ramBeforeMb := 0.0
  ramAfterMb := 0.0
  ramIncreaseMb := 0.0
  inputShapes := []
  outputShapes := []
  inputDtypes := []
  outputDtypes := []
  numParameters := 0
  parameterSizeMb := 0.0
  attentionHeads := none
  hiddenSize := none
  device := ""
  timestamp := ""
  customMetrics := .empty

/-- The fields of a record. -/
def layout : Layout (LayerRecord α)
    (String × String × UInt64 × α × Option α × Option α × Option α × α × α × α × α × α × α × α ×
      List (List UInt64) × List (List UInt64) × List String × List String × UInt64 × α ×
      Option UInt32 × Option UInt32 × String × String × Dictionary α × Unit) where
  split r := (r.layerName, r.layerType, r.layerIndex, r.forwardLatencyMs, r.p50LatencyMs,
    r.p95LatencyMs, r.p99LatencyMs, r.vramBeforeMb, r.vramAfterMb, r.vramPeakMb, r.vramIncreaseMb,
    r.ramBeforeMb, r.ramAfterMb, r.ramIncreaseMb, r.inputShapes, r.outputShapes, r.inputDtypes,
    r.outputDtypes, r.numParameters, r.parameterSizeMb, r.attentionHeads, r.hiddenSize, r.device,
    r.timestamp, r.customMetrics, ())
  join := fun (a, b, c, d, e, f, g, h, i, j, k, l, m, n, o, p, q, r, s, t, u, v, w, x, y, _) =>
    ⟨a, b, c, d, e, f, g, h, i, j, k, l, m, n, o, p, q, r, s, t, u, v, w, x, y⟩

/-- Every member of a record may be left out. -/
instance [Scalar α] [JsonCodec α] : JsonCodec (LayerRecord α) :=
  .record layout false <| .default "layer_name" "" <| .default "layer_type" "" <|
    .default "layer_index" 0 <| .default "forward_latency_ms" 0.0 <|
    .default "p50_latency_ms" none <| .default "p95_latency_ms" none <|
    .default "p99_latency_ms" none <| .default "vram_before_mb" 0.0 <|
    .default "vram_after_mb" 0.0 <| .default "vram_peak_mb" 0.0 <|
    .default "vram_increase_mb" 0.0 <| .default "ram_before_mb" 0.0 <|
    .default "ram_after_mb" 0.0 <| .default "ram_increase_mb" 0.0 <|
    .default "input_shapes" [] <| .default "output_shapes" [] <|
    .default "input_dtypes" [] <| .default "output_dtypes" [] <|
    .default "num_parameters" 0 <| .default "parameter_size_mb" 0.0 <|
    .default "attention_heads" none <| .default "hidden_size" none <| .default "device" "" <|
    .default "timestamp" "" <| .default "custom_metrics" .empty .done

end LayerRecord

/-- What a layer consumes or produces, as far as shapes are concerned. -/
inductive LayerValue where
  | tensor (shape : List UInt64) (dtype : String)
  | sequence (items : List LayerValue)
  | other

mutual

/-- Shapes and element types of all tensors in a value, depth first. -/
def LayerValue.tensors : LayerValue → List (List UInt64 × String)
  | .tensor shape dtype => [(shape, dtype)]
  | .sequence items => tensorsOfValues items
  | .other => []

/-- Shapes and element types of all tensors in a list of values. -/
def tensorsOfValues : List LayerValue → List (List UInt64 × String)
  | [] => []
  | v :: vs => v.tensors ++ tensorsOfValues vs

end

/-- Aggregate over every kept run of one layer. -/
structure LayerSummary (α : Type) where
  layerType : String
  layerIndex : UInt64
  totalRuns : UInt64
  averageLatencyMs : α
  /-- From the latest record; absent when fewer than two runs were seen. -/
  p95LatencyMs : Option α
  totalVramMb : α
  vramIncreaseMb : α
  numParameters : UInt64
  parameterSizeMb : α
deriving DecidableEq, Inhabited

namespace LayerSummary

variable {α : Type}

/-- Latency to plan with: the 95th percentile if known, else the mean. -/
def costLatencyMs (s : LayerSummary α) : α :=
  s.p95LatencyMs.getD s.averageLatencyMs

/-- What a profiled layer asks of the device that hosts it. -/
def requirement [Scalar α] (s : LayerSummary α) (name : String) : Requirement α :=
  { Requirement.basic name s.layerType (s.totalVramMb / 1024.0) (s.averageLatencyMs * 1000.0) with
    isLatencySensitive := (100.0 : α) < s.averageLatencyMs }

/-- The fields of a summary. -/
def layout : Layout (LayerSummary α)
    (String × UInt64 × UInt64 × α × Option α × α × α × UInt64 × α × Unit) where
  split s := (s.layerType, s.layerIndex, s.totalRuns, s.averageLatencyMs, s.p95LatencyMs,
    s.totalVramMb, s.vramIncreaseMb, s.numParameters, s.parameterSizeMb, ())
  join := fun (a, b, c, d, e, f, g, h, i, _) => ⟨a, b, c, d, e, f, g, h, i⟩

instance [JsonCodec α] : JsonCodec (LayerSummary α) :=
  .record layout false <| .field "layer_type" <| .field "layer_index" <| .field "total_runs" <|
    .field "avg_latency_ms" <| .optional "p95_latency_ms" <| .field "total_vram_mb" <|
    .field "vram_increase_mb" <| .field "num_parameters" <| .field "parameter_size_mb" .done

end LayerSummary

end LayerPipeline
