import LayerPipeline.Layer.Requirement
import LayerPipeline.Wire.Codec

/-!
# Layer costs

One layer of the ordered sequence with the figures that the planner needs.
-/

namespace LayerPipeline

/-- Cost of one layer, its latency measured on the reference device. -/
structure LayerCost (α : Type) where
  name : String
  layerType : String
  latencyMs : α
  memoryMb : α
  numParameters : UInt64
  /-- Only nodes with half precision may host the layer. -/
  requiresFp16 : Bool
deriving DecidableEq, Inhabited

namespace LayerCost

variable {α : Type}

/-- A layer without type, parameters and precision demand. -/
def basic (name : String) (latencyMs memoryMb : α) : LayerCost α :=
  ⟨name, "", latencyMs, memoryMb, 0, false⟩

/-- What the layer asks of the node that hosts it. -/
def requirement [Scalar α] (c : LayerCost α) : Requirement α :=
  let r := Requirement.basic c.name c.layerType (c.memoryMb / 1024.0) (c.latencyMs * 1000.0)
  if c.requiresFp16 then r.requiringFp16 else r

/-- The fields of a cost. -/
def layout : Layout (LayerCost α) (String × String × α × α × UInt64 × Bool × Unit) where
  split c := (c.name, c.layerType, c.latencyMs, c.memoryMb, c.numParameters, c.requiresFp16, ())
  join := fun (a, b, c, d, e, f, _) => ⟨a, b, c, d, e, f⟩

instance [JsonCodec α] : JsonCodec (LayerCost α) :=
  .record layout false <| .field "name" <| .field "layer_type" <| .field "latency_ms" <|
    .field "memory_mb" <| .field "num_parameters" <| .default "requires_fp16" false .done

instance [Wire α] : Wire (LayerCost α) := Wire.record layout

end LayerCost

/-- A demonstration profile: token embeddings, twenty-four transformer blocks of slowly growing
cost, and the output projection. -/
def demonstrationLayers {α : Type} [Scalar α] : List (LayerCost α) :=
  let blocks := (List.range 24).map fun i =>
    (⟨"transformer.h." ++ toString i, "TransformerBlock", 30.0 + Scalar.ofNat i * 2.0, 500.0,
      7087872, false⟩ : LayerCost α)
  ⟨"embeddings", "Embedding", 25.0, 300.0, 38597376, false⟩ :: blocks ++
    [⟨"lm_head", "Linear", 15.0, 200.0, 38597376, false⟩]

end LayerPipeline
