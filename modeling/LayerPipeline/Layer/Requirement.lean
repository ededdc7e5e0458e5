import LayerPipeline.Json.Codec
import LayerPipeline.Number.Scalar

/-!
# Requirements of a layer
-/

namespace LayerPipeline

/-- What one unit of work asks of the device that hosts it. -/
structure Requirement (α : Type) where
  layerName : String
  layerType : String
  /-- Peak footprint. -/
  memoryGb : α
  computeMillions : α
  precision : String
  requiresFp16 : Bool
  isLatencySensitive : Bool
deriving DecidableEq, Inhabited

namespace Requirement

variable {α : Type}

/-- A requirement of full precision. -/
def basic (name type : String) (memoryGb computeMillions : α) : Requirement α :=
  ⟨name, type, memoryGb, computeMillions, "fp32", false, false⟩

/-- The same work in half precision. -/
def requiringFp16 (r : Requirement α) : Requirement α :=
  { r with requiresFp16 := true, precision := "fp16" }

/-- The members of a requirement. -/
def layout : Layout (Requirement α) (String × String × α × α × String × Bool × Bool × Unit) where
  split r := (r.layerName, r.layerType, r.memoryGb, r.computeMillions, r.precision,
    r.requiresFp16, r.isLatencySensitive, ())
  join := fun (a, b, c, d, e, f, g, _) => ⟨a, b, c, d, e, f, g⟩

instance [JsonCodec α] : JsonCodec (Requirement α) :=
  .record layout false <| .field "layer_name" <| .field "layer_type" <| .field "memory_gb" <|
    .field "compute_millions" <| .field "precision" <| .field "requires_fp16" <|
    .field "is_latency_sensitive" .done

end Requirement

end LayerPipeline
