import LayerPipeline.Planning.Search

/-!
# Plans from layer costs

Nodes are filtered and ordered, the best partition is searched, and its blocks become the annotated
stages of a plan.
-/

namespace LayerPipeline

namespace Planning

variable {α : Type} [Scalar α]

/-- Whether a node may host anything. -/
def isEligible (n : Node α) : Bool :=
  !n.isSaturated && decide ((0.0 : α) < n.computeScore) && decide ((0.0 : α) < n.capacityGb)

/-- The order of the roster: by kind, then by falling score, then by name. -/
def rosterLE (a b : Node α) : Bool :=
  if a.kind.priority ≠ b.kind.priority then b.kind.priority < a.kind.priority
  else if !Scalar.totalLE a.computeScore b.computeScore then true
  else if !Scalar.totalLE b.computeScore a.computeScore then false
  else a.nodeId ≤ b.nodeId

/-- The nodes that may host stages, in the order of the roster. -/
def eligibleNodes (nodes : List (Node α)) : List (Node α) :=
  (nodes.filter isEligible).mergeSort rosterLE

/-- The sum of parameter counts, unless it leaves the 64-bit range. -/
def parameterSum? (layers : List (LayerCost α)) : Option UInt64 :=
  let total := layers.foldl (fun n l => n + l.numParameters.toNat) 0
  if total < UInt64.size then some (UInt64.ofNat total) else none

/-- Why a stage is where it is. -/
def rationale (slice : List (LayerCost α)) (node : Node α) (memoryMb : α) (strategy : Strategy) :
    String :=
  toString slice.length ++ " layers on " ++ node.kind.name ++ " node " ++ node.nodeId ++
    " (score " ++ Scalar.fixed 0 node.computeScore ++ "), " ++ Scalar.fixed 0 memoryMb ++ " of " ++
    Scalar.fixed 0 (node.availableGb * (1024.0 : α)) ++ " MB, " ++ strategy.name ++ " objective"

/-- The stage of a block. -/
def buildStage (config : PlannerConfig α) (layers : List (LayerCost α)) (nodes : List (Node α))
    (strategy : Strategy) (position : Nat) (b : Block) : Except PlanningError (Stage α) :=
  match nodes[b.node]? with
  | none => .error (.aborted .overflow)
  | some node =>
    let slice := (layers.drop b.start).take (b.stop - b.start)
    let cost := Scalar.sum (slice.map (·.latencyMs))
    let memoryMb := Scalar.sum (slice.map (·.memoryMb))
    match computeOn config node.toCapability cost with
    | .error e => .error (.ofData e)
    | .ok expected =>
      match parameterSum? slice with
      | none => .error (.aborted .overflow)
      | some numParameters => .ok {
          stageId := UInt64.ofNat position
          node := node
          layers := slice.map (·.name)
          expectedMs := expected
          transferMs := if 0 < position then transferMs config node else 0.0
          memoryMb := memoryMb
          numParameters := numParameters
          rationale := rationale slice node memoryMb strategy }

/-- The stages of the blocks from a position on. -/
def buildStages (config : PlannerConfig α) (layers : List (LayerCost α)) (nodes : List (Node α))
    (strategy : Strategy) (position : Nat) : List Block → Except PlanningError (List (Stage α))
  | [] => .ok []
  | b :: rest =>
    match buildStage config layers nodes strategy position b with
    | .error e => .error e
    | .ok s =>
      match buildStages config layers nodes strategy (position + 1) rest with
      | .error e => .error e
      | .ok ss => .ok (s :: ss)

/-- Position and value of the first largest element; `best` is the one so far. -/
def firstMaximum (best : Nat × α) (position : Nat) : List α → Nat × α
  | [] => best
  | x :: xs => firstMaximum (if best.2 < x then (position, x) else best) (position + 1) xs

/-- What holds a stage back. -/
def classify (config : PlannerConfig α) (s : Stage α) : BottleneckReason :=
  if (0.0 : α) < s.transferMs && s.expectedMs ≤ s.transferMs then .networkBound
  else if config.memoryPressure ≤ s.memoryUtilization then .memoryBound
  else .computeBound

/-- Shortest over longest time, between zero and one; one when nothing takes time. -/
def balance : List α → α
  | [] => 1.0
  | t :: ts =>
    let longest := (t :: ts).foldl max 0.0
    let shortest := ts.foldl min t
    if (0.0 : α) < longest then Scalar.clamp (shortest / longest) 0.0 1.0 else 1.0

/-- Standard deviation of a list of values. -/
def deviation (xs : List α) : α :=
  let n : α := Scalar.ofNat xs.length
  let mean := Scalar.sum xs / n
  Scalar.sqrt (Scalar.sum (xs.map fun x => (x - mean) * (x - mean)) / n)

/-- Remarks on the slowest stage. -/
def bottleneckNotes (p : Plan α) : List String :=
  match p.bottleneck? with
  | none => []
  | some b =>
    let endToEnd := p.totalExpectedMs + p.totalTransferMs
    let share := if 1 < p.stages.length && decide (endToEnd * 0.3 < p.bottleneckMs) then
        ["Bottleneck is " ++ Scalar.fixed 0 (p.bottleneckMs / endToEnd * (100.0 : α)) ++
          "% of end-to-end latency; splitting it further would help"]
      else []
    ("Bottleneck: stage " ++ toString b.stageId ++ " on " ++ b.node.nodeId ++ " (" ++
      Scalar.fixed 1 p.bottleneckMs ++ " ms, " ++ p.bottleneckReason.label ++ ")") :: share

/-- A remark on a stage that leaves most of its node unused. -/
def underuseNote? (config : PlannerConfig α) (p : Plan α) (s : Stage α) : Option String :=
  let utilization := s.memoryUtilization
  if s.stageId ≠ p.bottleneckStageId && decide (utilization < config.underutilization) &&
      decide (s.totalMs < p.bottleneckMs * 0.5) then
    some ("stage " ++ toString s.stageId ++ " underutilizes node " ++ s.node.nodeId ++ " (" ++
      Scalar.fixed 0 (utilization * (100.0 : α)) ++ "% memory, " ++ Scalar.fixed 1 s.totalMs ++
      " ms vs " ++ Scalar.fixed 1 p.bottleneckMs ++ " ms bottleneck)")
  else none

/-- Remarks on a plan for its operator. -/
def notes (config : PlannerConfig α) (eligible : Nat) (p : Plan α) : List String :=
  if p.stages.isEmpty then []
  else
    let k := p.stages.length
    let averageMb := Scalar.sum (p.stages.map (·.memoryMb)) / Scalar.ofNat k
    let balanceNote :=
      if p.loadBalance < config.imbalance then
        "Load imbalance: balance score " ++ Scalar.fixed 2 p.loadBalance ++ " is below " ++
          Scalar.fixed 2 config.imbalance ++ "; consider another strategy or node set"
      else "Load balance score " ++ Scalar.fixed 2 p.loadBalance
    let used := p.stages.map fun s => s.node.nodeId
    ["Strategy: " ++ p.strategy.name,
      toString p.numLayers ++ " layers across " ++ toString k ++ " stages",
      "Average memory per stage: " ++ Scalar.fixed 1 averageMb ++ " MB",
      "Stage latency std dev: " ++ Scalar.fixed 1 (deviation (p.stages.map (·.totalMs))) ++ " ms",
      balanceNote,
      "Nodes utilized: " ++ toString used.length ++ " of " ++ toString eligible ++ " (" ++
        String.intercalate ", " used ++ ")"] ++
      bottleneckNotes p ++ p.stages.filterMap (underuseNote? config p)

/-- The plan of a list of stages, with its bottleneck, its balance and remarks. -/
def finish (config : PlannerConfig α) (stages : List (Stage α)) (eligible : Nat)
    (modelName createdAt : String) (strategy : Strategy) : Plan α :=
  let totals := stages.map (·.totalMs)
  let (slowest, slowestMs) := match totals with
    | [] => (0, 0.0)
    | t :: ts => firstMaximum (0, t) 1 ts
  let plan : Plan α := {
    planName := modelName ++ "-" ++ strategy.name ++ "-" ++ toString stages.length ++ "stage"
    modelName := modelName
    createdAt := createdAt
    strategy := strategy
    stages := stages
    totalExpectedMs := Scalar.sum (stages.map (·.expectedMs))
    totalTransferMs := Scalar.sum (stages.map (·.transferMs))
    bottleneckStageId := UInt64.ofNat slowest
    bottleneckMs := slowestMs
    bottleneckReason := (stages[slowest]?.map (classify config)).getD .computeBound
    loadBalance := balance totals
    notes := [] }
  { plan with notes := notes config eligible plan }

/-- The first layer that needs half precision when no node offers it. -/
def unhostable? (layers : List (LayerCost α)) (nodes : List (Node α)) : Option (LayerCost α) :=
  layers.find? fun l => l.requiresFp16 && !nodes.any (·.supportsFp16)

/-- A plan for the layers over the nodes. `createdAt` is the time to be noted in it. -/
def generate (config : PlannerConfig α) (layers : List (LayerCost α)) (nodes : List (Node α))
    (modelName : String) (strategy : Strategy) (createdAt : String) :
    Except PlanningError (Plan α) := do
  if layers.isEmpty then throw .noLayers
  if nodes.isEmpty then throw .noNodes
  let eligible := eligibleNodes nodes
  if eligible.isEmpty then
    throw (.infeasible ("all " ++ toString nodes.length ++
      " nodes are saturated or report no compute/memory"))
  if let some l := unhostable? layers eligible then
    throw (.infeasible ("layer " ++ l.name ++ " requires fp16 but none of " ++
      toString eligible.length ++ " eligible nodes supports it"))
  let blocks ← solve config layers eligible strategy
  let stages ← buildStages config layers eligible strategy 0 blocks
  return finish config stages eligible.length modelName createdAt strategy

end Planning

end LayerPipeline
