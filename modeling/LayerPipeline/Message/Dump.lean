import LayerPipeline.Message.Envelope
import LayerPipeline.Text.Quoted

/-!
# Messages in diagnostic texts

A response that was not expected is shown in the error by its kind and its fields.
-/

namespace LayerPipeline

/-- A type whose values can be shown. -/
class Dump (α : Type) where
  dump : α → String

/-- A tuple whose components can be shown one by one. -/
class DumpFields (α : Type) where
  dumps : α → List String

namespace Dump

variable {α β : Type}

instance : DumpFields Unit := ⟨fun _ => []⟩

instance [Dump α] [DumpFields β] : DumpFields (α × β) :=
  ⟨fun p => dump p.1 :: DumpFields.dumps p.2⟩

instance : Dump String := ⟨Text.quoted⟩

instance : Dump Bool := ⟨fun b => if b then "true" else "false"⟩

instance : Dump UInt8 := ⟨fun n => toString n⟩

instance : Dump UInt32 := ⟨fun n => toString n⟩

instance : Dump UInt64 := ⟨fun n => toString n⟩

instance : Dump Binary64 := ⟨Decimal.write Decimal.dumpStyle⟩

instance [Dump α] : Dump (Option α) where
  dump
    | none => "None"
    | some a => "Some(" ++ dump a ++ ")"

instance [Dump α] : Dump (List α) := ⟨fun xs => Text.bracketed (xs.map dump)⟩

instance [Dump α] : Dump (Dictionary α) where
  dump d := "\x7b" ++ String.intercalate ", " (d.entries.map fun e =>
    Text.quoted e.1 ++ ": " ++ dump e.2) ++ "\x7d"

/-- A record by its name and its named fields. -/
def fields (name : String) (names values : List String) : String :=
  name ++ " \x7b " ++
    String.intercalate ", " ((names.zip values).map fun f => f.1 ++ ": " ++ f.2) ++ " \x7d"

/-- The names of the members that a value has as a document. -/
def memberNames [JsonCodec α] (a : α) : List String :=
  match JsonCodec.write a with
  | .object ms => ms.filterMap (·.1)
  | _ => []

/-- A record is shown under a name, its fields named as in documents. -/
@[reducible]
def record [JsonCodec α] [DumpFields β] (name : String) (layout : Layout α β) : Dump α :=
  ⟨fun a => fields name (memberNames a) (DumpFields.dumps (layout.split a))⟩

instance : Dump DeviceKind where
  dump
    | .cpu => "Cpu"
    | .gpu => "Gpu"
    | .integratedGpu => "IntegratedGpu"

instance : Dump Dtype := ⟨fun d => d.name.map Char.toUpper⟩

instance : Dump Strategy where
  dump
    | .balanced => "Balanced"
    | .latency => "Latency"
    | .memory => "Memory"

instance : Dump BottleneckReason where
  dump
    | .computeBound => "ComputeBound"
    | .memoryBound => "MemoryBound"
    | .networkBound => "NetworkBound"

instance : Dump NodeRole where
  dump
    | .coordinator => "Coordinator"
    | .worker => "Worker"

variable [Scalar α] [JsonCodec α] [Dump α]

instance : Dump Tensor := record "TensorData" Tensor.layout

instance : Dump (Node α) := record "VirtualNode" Node.layout

instance : Dump (Descriptor α) := record "NodeDescriptor" Descriptor.layout

instance : Dump (Stage α) := record "Stage" Stage.layout

instance : Dump (Plan α) := record "PartitionPlan" Plan.layout

instance : Dump (PlanSummary α) := record "PlanSummary" PlanSummary.layout

instance : Dump (DeviceSummary α) := record "DeviceSummary" DeviceSummary.layout

instance : Dump (NodeInfo α) := record "NodeInfo" NodeInfo.layout

instance : Dump (ExecutionReport α) := record "ExecutionMetadata" ExecutionReport.layout

instance : Dump (SessionCreated α) := record "CreateSessionResponse" SessionCreated.layout

instance : Dump (ForwardResult α) := record "ExecuteForwardResponse" ForwardResult.layout

instance : Dump SessionClosed := record "CloseSessionResponse" SessionClosed.layout

instance : Dump Pong := record "PingResponse" Pong.layout

instance : Dump (HardwareInfo α) := record "HardwareInfo" HardwareInfo.layout

instance : Dump (CapabilityReport α) := record "CapabilitiesResponse" CapabilityReport.layout

instance : Dump (HealthReport α) := record "HealthResponse" HealthReport.layout

instance : Dump (PlanResult α) := record "PlanningResponse" PlanResult.layout

instance : Dump (WorkerRegistered α) := record "RegisterWorkerResponse" WorkerRegistered.layout

instance : Dump (StagePerformance α) := record "StagePerformance" StagePerformance.layout

instance : Dump (StageForwarded α) := record "StageForwardResponse" StageForwarded.layout

instance : Dump (MetricsRecord α) := record "MetricsSubmission" MetricsRecord.layout

instance : Dump (MetricsReport α) := record "MetricsReport" MetricsReport.layout

instance : Dump HeartbeatSeen := record "HeartbeatResponse" HeartbeatSeen.layout

/-- A message kind around its body. -/
def tagged [Dump β] (tag : String) (b : β) : String := tag ++ "(" ++ dump b ++ ")"

instance : Dump (Response α) where
  dump
    | .sessionCreated b => tagged "CreateSession" b
    | .forwarded b => tagged "ExecuteForward" b
    | .sessionClosed b => tagged "CloseSession" b
    | .pong b => tagged "Ping" b
    | .capabilities b => tagged "Capabilities" b
    | .health b => tagged "Health" b
    | .planned b => tagged "Plan" b
    | .workerRegistered b => tagged "WorkerRegistered" b
    | .stageForwarded b => tagged "StageForward" b
    | .metricsAccepted n => fields "MetricsAccepted" ["total_records"] [dump n]
    | .metrics b => tagged "Metrics" b
    | .heartbeatSeen b => tagged "Heartbeat" b
    | .error m => fields "Error" ["message"] [dump m]

end Dump

end LayerPipeline
