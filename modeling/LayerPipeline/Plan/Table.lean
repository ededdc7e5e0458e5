import LayerPipeline.Plan.Basic
import LayerPipeline.Text.Quoted

/-!
# Plans as tables
-/

namespace LayerPipeline

namespace Plan

open Text

variable {α : Type} [Scalar α]

/-- Width of a table. -/
def tableWidth : Nat := 78

/-- One line of the table. The kind of the device is not padded, and nothing follows the last
column but the mark of the bottleneck. -/
def row (stage node kind layers compute transfer memory mark : String) : String :=
  padRight 6 stage ++ " " ++ padRight 16 node ++ " " ++ kind ++ " " ++ padLeft 7 layers ++ " " ++
    padLeft 11 compute ++ " " ++ padLeft 11 transfer ++ " " ++ padLeft 11 memory ++ mark

/-- The lines of one stage: its figures, and the first and the last layer. -/
def stageLines (p : Plan α) (s : Stage α) : List String :=
  let mark := if s.stageId = p.bottleneckStageId then " *" else ""
  let figures := row (toString s.stageId) (shorten 16 s.node.nodeId) s.node.kind.name
    (toString s.layers.length) (Scalar.fixed 1 s.expectedMs) (Scalar.fixed 2 s.transferMs)
    (Scalar.fixed 0 s.memoryMb) mark
  match s.layers.head?, s.layers.getLast? with
  | some first, some last => [figures, "       " ++ first ++ " .. " ++ last]
  | _, _ => [figures]

/-- The operator's view of a plan. -/
def table (p : Plan α) : String :=
  let rule := "".pushn '=' tableWidth
  let thin := "".pushn '-' tableWidth
  let head :=
    [rule,
      "Partition plan: " ++ p.planName ++ " (" ++ p.modelName ++ ")",
      "Strategy: " ++ p.strategy.name ++ "  Stages: " ++ toString p.stages.length ++ "  Layers: " ++
        toString p.numLayers,
      rule,
      row "stage" "node" (padRight 5 "type") "layers" "compute ms" "xfer ms" "memory MB" "",
      thin]
  let foot :=
    [thin,
      "Expected latency: " ++ Scalar.fixed 1 p.totalExpectedMs ++ " ms compute + " ++
        Scalar.fixed 2 p.totalTransferMs ++ " ms transfer",
      "Bottleneck: stage " ++ toString p.bottleneckStageId ++ " (" ++
        Scalar.fixed 1 p.bottleneckMs ++ " ms, " ++ p.bottleneckReason.label ++ ")",
      "Load balance: " ++ Scalar.fixed 2 p.loadBalance]
  let notes := if p.notes.isEmpty then [] else "Notes:" :: p.notes.map ("  - " ++ ·)
  String.join <| (head ++ p.stages.flatMap p.stageLines ++ foot ++ notes ++ [rule]).map (· ++ "\n")

end Plan

end LayerPipeline
