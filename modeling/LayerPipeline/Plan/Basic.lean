import LayerPipeline.Hardware.Node

/-!
# Partition plans

Ordered stages that cover a layer sequence, the checks that such a plan has to pass, and its
condensed form.
-/

namespace LayerPipeline

/-- Objective of placement and of planning. -/
inductive Strategy where
  | balanced
  | latency
  | memory
deriving DecidableEq, Inhabited

namespace Strategy

/-- All strategies, in the order of their binary codes. -/
def all : List Strategy := [.balanced, .latency, .memory]

/-- The name of a strategy. -/
def name : Strategy → String
  | .balanced => "balanced"
  | .latency => "latency"
  | .memory => "memory"

/-- Every accepted spelling. -/
def spellings : List (String × Strategy) :=
  [("balanced", .balanced), ("latency", .latency), ("latency_optimized", .latency),
    ("memory", .memory), ("memory_aware", .memory)]

/-- The strategy with a given spelling, in letters of either case. -/
def ofName (text : String) : Except DataError Strategy :=
  let lower := text.map Char.toLower
  match spellings.lookup lower with
  | some s => .ok s
  | none => .error (.unknownStrategy lower)

instance : JsonCodec Strategy := ⟨fun s => .str s.name, JsonCodec.ofTag spellings⟩

instance : Wire Strategy := Wire.enumeration all

end Strategy

/-- Why the slowest stage is slow. -/
inductive BottleneckReason where
  | computeBound
  | memoryBound
  | networkBound
deriving DecidableEq, Inhabited

namespace BottleneckReason

/-- All reasons, in the order of their binary codes. -/
def all : List BottleneckReason := [.computeBound, .memoryBound, .networkBound]

/-- The name of a reason in documents. -/
def name : BottleneckReason → String
  | .computeBound => "compute_bound"
  | .memoryBound => "memory_bound"
  | .networkBound => "network_bound"

/-- The reason in texts for operators. -/
def label : BottleneckReason → String
  | .computeBound => "compute-bound"
  | .memoryBound => "memory-bound"
  | .networkBound => "network-bound"

instance : JsonCodec BottleneckReason :=
  ⟨fun r => .str r.name, JsonCodec.ofTag (all.map fun r => (r.name, r))⟩

instance : Wire BottleneckReason := Wire.enumeration all

end BottleneckReason

/-- A contiguous block of layers assigned to one node. -/
structure Stage (α : Type) where
  stageId : UInt64
  node : Node α
  layers : List String
  /-- Estimated compute time on the node. -/
  expectedMs : α
  /-- Estimated hand-off into this stage; zero for the first one. -/
  transferMs : α
  memoryMb : α
  numParameters : UInt64
  rationale : String
deriving DecidableEq, Inhabited

namespace Stage

variable {α : Type} [Scalar α]

/-- Compute and hand-off together. -/
def totalMs (s : Stage α) : α := s.expectedMs + s.transferMs

/-- Share of the node's available memory that the stage takes, infinite on a node without any. -/
def memoryUtilization (s : Stage α) : α :=
  let availableMb := s.node.availableGb * 1024.0
  if availableMb ≤ 0.0 then Scalar.infinity else s.memoryMb / availableMb

/-- The fields of a stage. -/
def layout : Layout (Stage α)
    (UInt64 × Node α × List String × α × α × α × UInt64 × String × Unit) where
  split s := (s.stageId, s.node, s.layers, s.expectedMs, s.transferMs, s.memoryMb,
    s.numParameters, s.rationale, ())
  join := fun (a, b, c, d, e, f, g, h, _) => ⟨a, b, c, d, e, f, g, h⟩

instance [JsonCodec α] : JsonCodec (Stage α) :=
  .record layout false <| .field "stage_id" <| .field "node" <| .field "layers" <|
    .field "expected_latency_ms" <| .field "transfer_latency_ms" <|
    .field "memory_required_mb" <| .field "num_parameters" <| .field "rationale" .done

instance [Wire α] : Wire (Stage α) := Wire.record layout

end Stage

/-- Stages that cover a layer sequence. -/
structure Plan (α : Type) where
  planName : String
  modelName : String
  createdAt : String
  strategy : Strategy
  stages : List (Stage α)
  /-- Sum of the stages' compute times. -/
  totalExpectedMs : α
  /-- Sum of the hand-offs. -/
  totalTransferMs : α
  bottleneckStageId : UInt64
  bottleneckMs : α
  bottleneckReason : BottleneckReason
  /-- Shortest over longest stage time. -/
  loadBalance : α
  notes : List String
deriving DecidableEq, Inhabited

/-- A plan in brief. -/
structure PlanSummary (α : Type) where
  planName : String
  modelName : String
  strategy : Strategy
  numStages : UInt64
  numLayers : UInt64
  totalExpectedMs : α
  totalTransferMs : α
  bottleneckStageId : UInt64
  bottleneckNodeId : String
  bottleneckMs : α
  bottleneckReason : BottleneckReason
  loadBalance : α
  nodes : List String
deriving DecidableEq, Inhabited

/-- What is wrong with a plan. -/
inductive PlanFault (α : Type) where
  | noStages
  | wrongStageId (expected : Nat) (got : UInt64)
  | emptyStage (id : UInt64)
  | duplicateLayer (name : String)
  /-- A stage that needs more memory than its node has. -/
  | overcommitted (id : UInt64) (neededMb : α) (node : String) (availableMb : α)
  | bottleneckOutOfRange (id : UInt64)

/-- The fault in words. -/
def PlanFault.reason {α : Type} [Scalar α] : PlanFault α → String
  | .noStages => "plan has no stages"
  | .wrongStageId expected got => s!"expected stage id {expected}, got {got}"
  | .emptyStage id => s!"stage {id} is empty"
  | .duplicateLayer name => s!"layer {name} appears more than once"
  | .overcommitted id needed node available =>
    "stage " ++ toString id ++ " needs " ++ Scalar.fixed 0 needed ++ " MB but node " ++ node ++
      " has " ++ Scalar.fixed 0 available ++ " MB"
  | .bottleneckOutOfRange id => s!"bottleneck stage {id} out of range"

namespace Plan

variable {α : Type} [Scalar α]

/-- All layer names in execution order. -/
def layerSequence (p : Plan α) : List String :=
  p.stages.flatMap (·.layers)

/-- Number of layers of all stages. -/
def numLayers (p : Plan α) : Nat :=
  p.layerSequence.length

/-- The stages hosted on a node. -/
def stagesOn (p : Plan α) (node : String) : List (Stage α) :=
  p.stages.filter fun s => s.node.nodeId = node

/-- The stage at a position. -/
def stage? (p : Plan α) (i : UInt64) : Option (Stage α) := p.stages[i.toNat]?

/-- The slowest stage, if the plan names one that exists. -/
def bottleneck? (p : Plan α) : Option (Stage α) := p.stage? p.bottleneckStageId

/-- The first name that was seen before, in the list or in `seen`. -/
def repeated? (seen : List String) : List String → Option String
  | [] => none
  | x :: xs => if seen.contains x then some x else repeated? (x :: seen) xs

/-- The first fault of a stage at a position, given the layer names of the stages before it. -/
def stageFault? (position : Nat) (seen : List String) (s : Stage α) : Option (PlanFault α) :=
  if s.stageId.toNat ≠ position then some (.wrongStageId position s.stageId)
  else if s.layers.isEmpty then some (.emptyStage s.stageId)
  else
    match repeated? seen s.layers with
    | some name => some (.duplicateLayer name)
    | none =>
      if s.node.canFit s.memoryMb then none
      else some (.overcommitted s.stageId s.memoryMb s.node.nodeId (s.node.availableGb * 1024.0))

/-- The first fault of the stages from a position on. -/
def stagesFault? (position : Nat) (seen : List String) : List (Stage α) → Option (PlanFault α)
  | [] => none
  | s :: rest =>
    match stageFault? position seen s with
    | some f => some f
    | none => stagesFault? (position + 1) (seen ++ s.layers) rest

/-- The first fault of a plan, in the order of its stages. -/
def fault? (p : Plan α) : Option (PlanFault α) :=
  if p.stages.isEmpty then some .noStages
  else
    match stagesFault? 0 [] p.stages with
    | some f => some f
    | none =>
      if p.stages.length ≤ p.bottleneckStageId.toNat then
        some (.bottleneckOutOfRange p.bottleneckStageId)
      else none

/-- Refuses a plan that nothing can be run by. -/
def validate (p : Plan α) : Except DataError Unit :=
  match p.fault? with
  | some f => .error (.invalidPlan f.reason)
  | none => .ok ()

/-- The plan in brief. -/
def summary (p : Plan α) : PlanSummary α where
  planName := p.planName
  modelName := p.modelName
  strategy := p.strategy
  numStages := UInt64.ofNat p.stages.length
  numLayers := UInt64.ofNat p.numLayers
  totalExpectedMs := p.totalExpectedMs
  totalTransferMs := p.totalTransferMs
  bottleneckStageId := p.bottleneckStageId
  bottleneckNodeId := (p.bottleneck?.map fun s => s.node.nodeId).getD ""
  bottleneckMs := p.bottleneckMs
  bottleneckReason := p.bottleneckReason
  loadBalance := p.loadBalance
  nodes := p.stages.map fun s => s.node.nodeId

/-- The fields of a plan. -/
def layout : Layout (Plan α)
    (String × String × String × Strategy × List (Stage α) × α × α × UInt64 × α ×
      BottleneckReason × α × List String × Unit) where
  split p := (p.planName, p.modelName, p.createdAt, p.strategy, p.stages, p.totalExpectedMs,
    p.totalTransferMs, p.bottleneckStageId, p.bottleneckMs, p.bottleneckReason, p.loadBalance,
    p.notes, ())
  join := fun (a, b, c, d, e, f, g, h, i, j, k, l, _) => ⟨a, b, c, d, e, f, g, h, i, j, k, l⟩

instance [JsonCodec α] : JsonCodec (Plan α) :=
  .record layout false <| .field "plan_name" <| .field "model_name" <| .field "created_at" <|
    .field "strategy" <| .field "stages" <| .field "total_expected_latency_ms" <|
    .field "total_transfer_latency_ms" <| .field "bottleneck_stage_id" <|
    .field "bottleneck_latency_ms" <| .field "bottleneck_reason" <|
    .field "load_balance_score" <| .field "optimization_notes" .done

instance [Wire α] : Wire (Plan α) := Wire.record layout

end Plan

namespace PlanSummary

variable {α : Type}

/-- The fields of a summary. -/
def layout : Layout (PlanSummary α)
    (String × String × Strategy × UInt64 × UInt64 × α × α × UInt64 × String × α ×
      BottleneckReason × α × List String × Unit) where
  split s := (s.planName, s.modelName, s.strategy, s.numStages, s.numLayers, s.totalExpectedMs,
    s.totalTransferMs, s.bottleneckStageId, s.bottleneckNodeId, s.bottleneckMs,
    s.bottleneckReason, s.loadBalance, s.nodes, ())
  join := fun (a, b, c, d, e, f, g, h, i, j, k, l, m, _) => ⟨a, b, c, d, e, f, g, h, i, j, k, l, m⟩

instance [JsonCodec α] : JsonCodec (PlanSummary α) :=
  .record layout false <| .field "plan_name" <| .field "model_name" <| .field "strategy" <|
    .field "num_stages" <| .field "num_layers" <| .field "total_expected_latency_ms" <|
    .field "total_transfer_latency_ms" <| .field "bottleneck_stage_id" <|
    .field "bottleneck_node_id" <| .field "bottleneck_latency_ms" <|
    .field "bottleneck_reason" <| .field "load_balance_score" <| .field "nodes" .done

instance [Wire α] : Wire (PlanSummary α) := Wire.record layout

end PlanSummary

end LayerPipeline
