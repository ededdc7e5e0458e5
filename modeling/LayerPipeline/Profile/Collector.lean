import LayerPipeline.Error.Planning
import LayerPipeline.Layer.Cost
import LayerPipeline.Layer.Record
import LayerPipeline.OrderedDictionary

/-!
# Collecting layer records

A profiling run opens a record before a layer executes and files it afterwards. When a batch of runs
is complete, the latest record of each layer is stamped with percentiles. The summaries are what the
planner works with.
-/

namespace LayerPipeline

/-- Memory in use at one instant, in megabytes. -/
structure MemorySample (α : Type) where
  vramMb : α
  vramPeakMb : α
  ramMb : α
deriving DecidableEq, Inhabited

/-- Everything recorded so far. -/
structure Collector (α : Type) where
  /-- The runs of each layer, oldest first, and the layers in the order in which they were first
  seen. -/
  layers : OrderedDictionary (List (LayerRecord α))
  /-- Records opened and not yet filed. -/
  inFlight : Nat
deriving DecidableEq, Inhabited

namespace Collector

variable {α : Type}

/-- Nothing recorded. -/
def empty : Collector α := ⟨.empty, 0⟩

/-- All runs of a layer, oldest first. -/
def runs (c : Collector α) (name : String) : List (LayerRecord α) :=
  (c.layers.get? name).getD []

/-- Layer names in the order in which they were first seen. -/
def layerNames (c : Collector α) : List String := c.layers.order

/-- The layers with their runs, in the order in which they were first seen. -/
def history (c : Collector α) : List (String × List (LayerRecord α)) := c.layers.items

/-- Number of records of all layers. -/
def totalRecords (c : Collector α) : Nat := (c.history.flatMap (·.2)).length

/-- Files a record under its layer name, behind the other runs of the layer. -/
def file (c : Collector α) (r : LayerRecord α) : Collector α :=
  { c with layers := c.layers.insert r.layerName (c.runs r.layerName ++ [r]) }

variable [Scalar α]

/-- Opens a record for one execution of a layer on a device. -/
def start (c : Collector α) (sample : MemorySample α) (device timestamp name type : String)
    (index : UInt64) : LayerRecord α × Collector α :=
  ({ LayerRecord.basic name type index with
      vramBeforeMb := sample.vramMb
      ramBeforeMb := sample.ramMb
      device := device
      timestamp := timestamp },
    { c with inFlight := c.inFlight + 1 })

/-- The record of an execution that is over. -/
def closed (sample : MemorySample α) (r : LayerRecord α) (latencyMs : α) : LayerRecord α :=
  { r with
    forwardLatencyMs := latencyMs
    vramAfterMb := sample.vramMb
    vramPeakMb := max sample.vramPeakMb sample.vramMb
    vramIncreaseMb := sample.vramMb - r.vramBeforeMb
    ramAfterMb := sample.ramMb
    ramIncreaseMb := sample.ramMb - r.ramBeforeMb }

/-- Closes a record and files it. -/
def stop (c : Collector α) (sample : MemorySample α) (r : LayerRecord α) (latencyMs : α) :
    Collector α :=
  { c with inFlight := c.inFlight - 1 }.file (closed sample r latencyMs)

/-- Notes the shapes that a layer consumed and produced. -/
def noteTensors (r : LayerRecord α) (inputs outputs : LayerValue) : LayerRecord α :=
  let i := inputs.tensors
  let o := outputs.tensors
  { r with
    inputShapes := r.inputShapes ++ i.map (·.1)
    inputDtypes := r.inputDtypes ++ i.map (·.2)
    outputShapes := r.outputShapes ++ o.map (·.1)
    outputDtypes := r.outputDtypes ++ o.map (·.2) }

/-- Notes the parameters of a layer. -/
def noteParameters (r : LayerRecord α) (count bytes : UInt64) : LayerRecord α :=
  { r with
    numParameters := count
    parameterSizeMb := Scalar.ofNat bytes.toNat / (1024.0 * 1024.0) }

/-! ## Percentiles and summaries -/

/-- The position of a quantile among `n` values. -/
def quantileIndex (n : Nat) (q : α) : Nat :=
  min (Scalar.truncate (Scalar.ofNat n * q)) (n - 1)

/-- Stamps percentiles on the last of two or more runs. -/
def stamp (rs : List (LayerRecord α)) : List (LayerRecord α) :=
  let n := rs.length
  let sorted := (rs.map (·.forwardLatencyMs)).mergeSort Scalar.totalLE
  match rs.getLast? with
  | some latest =>
    if n ≤ 1 then rs
    else
      rs.dropLast ++ [{ latest with
        p50LatencyMs := sorted[n / 2]?
        p95LatencyMs := sorted[quantileIndex n (0.95 : α)]?
        p99LatencyMs := sorted[quantileIndex n (0.99 : α)]? }]
  | none => rs

/-- Stamps percentiles on the latest record of every layer that ran more than once. -/
def finalize (c : Collector α) : Collector α :=
  { c with layers := c.layers.map stamp }

/-- The aggregate over the runs of a layer. -/
def summarize? (rs : List (LayerRecord α)) : Option (LayerSummary α) :=
  rs.getLast?.map fun latest => {
    layerType := latest.layerType
    layerIndex := latest.layerIndex
    totalRuns := UInt64.ofNat rs.length
    averageLatencyMs := Scalar.sum (rs.map (·.forwardLatencyMs)) / Scalar.ofNat rs.length
    p95LatencyMs := latest.p95LatencyMs
    totalVramMb := max latest.vramPeakMb latest.vramAfterMb
    vramIncreaseMb := latest.vramIncreaseMb
    numParameters := latest.numParameters
    parameterSizeMb := latest.parameterSizeMb }

/-- One summary per layer, in the order in which the layers were first seen. -/
def summaries (c : Collector α) : List (String × LayerSummary α) :=
  c.history.filterMap fun h => (summarize? h.2).map fun s => (h.1, s)

/-- What the planner works with: one cost per layer, by layer index. -/
def layerCosts (c : Collector α) : List (LayerCost α) :=
  let sorted := c.summaries.mergeSort fun a b => a.2.layerIndex ≤ b.2.layerIndex
  sorted.map fun (name, s) => {
    name := name
    layerType := s.layerType
    latencyMs := s.costLatencyMs
    memoryMb := max s.totalVramMb s.parameterSizeMb
    numParameters := s.numParameters
    requiresFp16 := false }

end Collector

end LayerPipeline
