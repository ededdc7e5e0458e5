import LayerPipeline.Layer.Cost
import LayerPipeline.Message.Session
import LayerPipeline.Plan.Basic

/-!
# Messages about plans and collected metrics
-/

namespace LayerPipeline

/-- Asks for a plan. -/
structure PlanRequest (α : Type) where
  modelName : String
  strategy : Strategy
  /-- Nodes to plan over; none means the healthy registered ones. -/
  nodes : List (Descriptor α)
  /-- Layers to plan; without any the loaded profile is used. -/
  layers : Option (List (LayerCost α))
  /-- Whether the result becomes the active plan. -/
  activate : Bool
deriving DecidableEq, Inhabited

namespace PlanRequest

variable {α : Type}

/-- The fields in declaration order. -/
def layout : Layout (PlanRequest α)
    (String × Strategy × List (Descriptor α) × Option (List (LayerCost α)) × Bool × Unit) where
  split r := (r.modelName, r.strategy, r.nodes, r.layers, r.activate, ())
  join := fun (a, b, c, d, e, _) => ⟨a, b, c, d, e⟩

instance [Scalar α] [JsonCodec α] : JsonCodec (PlanRequest α) :=
  .record layout true <| .field "model_name" <| .default "strategy" .balanced <|
    .default "nodes" [] <| .default "layers" none <| .default "activate" true .done

instance [Wire α] : Wire (PlanRequest α) := Wire.record layout

end PlanRequest

/-- Answer to a request for a plan. -/
structure PlanResult (α : Type) where
  success : Bool
  errorMessage : Option String
  plan : Option (Plan α)
  summary : Option (PlanSummary α)
deriving DecidableEq, Inhabited

namespace PlanResult

variable {α : Type}

/-- The fields in declaration order. -/
def layout : Layout (PlanResult α)
    (Bool × Option String × Option (Plan α) × Option (PlanSummary α) × Unit) where
  split r := (r.success, r.errorMessage, r.plan, r.summary, ())
  join := fun (a, b, c, d, _) => ⟨a, b, c, d⟩

instance [JsonCodec α] : JsonCodec (PlanResult α) :=
  .record layout true <| .field "success" <| .optional "error_message" <| .optional "plan" <|
    .optional "summary" .done

instance [Wire α] : Wire (PlanResult α) := Wire.record layout

end PlanResult

/-- A report of one stage execution, as collected by the coordinator. -/
structure MetricsRecord (α : Type) where
  /-- Reporting node. -/
  source : String
  sessionId : Option String
  tokenIndex : Option UInt64
  report : ExecutionReport α
  timestamp : String
deriving DecidableEq, Inhabited

namespace MetricsRecord

variable {α : Type}

/-- The fields in declaration order. -/
def layout : Layout (MetricsRecord α)
    (String × Option String × Option UInt64 × ExecutionReport α × String × Unit) where
  split r := (r.source, r.sessionId, r.tokenIndex, r.report, r.timestamp, ())
  join := fun (a, b, c, d, e, _) => ⟨a, b, c, d, e⟩

instance [JsonCodec α] : JsonCodec (MetricsRecord α) :=
  .record layout true <| .field "source" <| .optional "session_id" <| .optional "token_index" <|
    .field "metadata" <| .field "timestamp" .done

instance [Wire α] : Wire (MetricsRecord α) := Wire.record layout

end MetricsRecord

/-- Asks for collected reports. -/
structure MetricsQuery where
  source : Option String
deriving DecidableEq, Inhabited

namespace MetricsQuery

/-- The fields in declaration order. -/
def layout : Layout MetricsQuery (Option String × Unit) where
  split r := (r.source, ())
  join := fun (a, _) => ⟨a⟩

instance : JsonCodec MetricsQuery :=
  .record layout true <| .default "source" none .done

instance : Wire MetricsQuery := Wire.record layout

end MetricsQuery

/-- Collected reports in brief. -/
structure MetricsReport (α : Type) where
  totalRecords : UInt64
  filteredRecords : UInt64
  bySource : Dictionary UInt64
  averageMs : α
  /-- The latest matching reports, oldest first. -/
  recent : List (MetricsRecord α)
deriving DecidableEq, Inhabited

namespace MetricsReport

variable {α : Type}

/-- The fields in declaration order. -/
def layout : Layout (MetricsReport α)
    (UInt64 × UInt64 × Dictionary UInt64 × α × List (MetricsRecord α) × Unit) where
  split r := (r.totalRecords, r.filteredRecords, r.bySource, r.averageMs, r.recent, ())
  join := fun (a, b, c, d, e, _) => ⟨a, b, c, d, e⟩

instance [JsonCodec α] : JsonCodec (MetricsReport α) :=
  .record layout true <| .field "total_records" <| .field "filtered_records" <|
    .field "by_source" <| .field "average_latency_ms" <| .field "recent" .done

instance [Wire α] : Wire (MetricsReport α) := Wire.record layout

end MetricsReport

end LayerPipeline
