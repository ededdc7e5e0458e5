import LayerPipeline.Error.Service
import LayerPipeline.Tensor

/-!
# Compute engines

A node does no layer arithmetic itself: a stage hands its activations to an engine and passes on
what comes back.
-/

namespace LayerPipeline

/-- What runs the layers of a stage, as it is at one moment. -/
structure Engine (α : Type) where
  /-- Device label in reports. -/
  device : String
  /-- Peak memory of the last call in reports. -/
  peakMemoryMb : α
  /-- How long a call keeps its session busy. -/
  delayMs : Nat
  /-- How long a call takes as measured. -/
  elapsedMs : α
  /-- Runs the named layers of a stage over its input. -/
  compute : (stageId : String) → (layers : List String) → Tensor → Except ServiceError Tensor

/-- One call of an engine: the stage it ran, the layers of the stage and the input. -/
structure EngineCall where
  stageId : String
  layers : List String
  input : Tensor
deriving DecidableEq, Inhabited

/-- An engine over time. Every call may leave it another one: it may learn, run warm, grow slower or
break down. -/
structure Backend (α : Type) where
  /-- The engine as it is after calls, oldest first. -/
  after : (calls : List EngineCall) → Engine α

/-- An engine that its calls leave as it is. -/
instance {α : Type} : Coe (Engine α) (Backend α) := ⟨fun engine => ⟨fun _ => engine⟩⟩

/-- The engine that returns its input. -/
def Engine.passthrough {α : Type} [Scalar α] (device : String) (delayMs : Nat) : Engine α where
  device := device
  peakMemoryMb := 0.0
  delayMs := delayMs
  elapsedMs := Scalar.ofNat delayMs + 0.001
  compute _ _ input := .ok input

/-- The engine that returns its input, now and later. -/
def Backend.passthrough {α : Type} [Scalar α] (device : String) (delayMs : Nat) : Backend α :=
  ⟨fun _ => .passthrough device delayMs⟩

end LayerPipeline
