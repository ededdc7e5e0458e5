import LayerPipeline.Error.Planning
import LayerPipeline.Json.Reader
import LayerPipeline.Json.Writer
import LayerPipeline.Plan.Basic

/-!
# Plan files
-/

namespace LayerPipeline

namespace Plan

variable {α : Type} [Scalar α] [JsonCodec α]

/-- The text of the file that keeps a plan. -/
def toFileText (p : Plan α) : String := (JsonCodec.write p).indented

/-- The plan kept in a file; a plan that nothing can be run by is refused. -/
def ofFileText (text : String) : Except PlanningError (Plan α) :=
  match (Json.parse? text).bind JsonCodec.read with
  | none => .error .malformedJson
  | some p =>
    match (p : Plan α).validate with
    | .error e => .error (.ofData e)
    | .ok _ => .ok p

end Plan

/-- The system's words for a file that does not exist. -/
def noSuchFileReason : String := "No such file or directory (os error 2)"

end LayerPipeline
