import LayerPipeline.Error.Data

/-!
# Errors of planning and profiling
-/

namespace LayerPipeline

/-- Why no plan, assignment or profile was produced. -/
inductive PlanningError where
  /-- No placement satisfies the constraints. -/
  | infeasible (reason : String)
  | noLayers
  | noNodes
  | saturated (device load : String)
  | unknownDevice (id : String)
  | invalidPlan (reason : String)
  /-- A file could not be read or written; `reason` is the system's text. -/
  | io (reason : String)
  /-- A document that does not describe the wanted value. -/
  | malformedJson
  | aborted (cause : Abort)
deriving DecidableEq, Inhabited

namespace PlanningError

/-- What the error says. -/
def message : PlanningError → String
  | .infeasible r => "plan infeasible: " ++ r
  | .noLayers => "no layer costs to plan with"
  | .noNodes => "no nodes available for planning"
  | .saturated d l => saturationText d l
  | .unknownDevice id => "unknown device: " ++ id
  | .invalidPlan r => "invalid plan: " ++ r
  | .io r => "metrics I/O error: " ++ r
  | .malformedJson => "serialization error"
  | .aborted _ => "computation abandoned"

/-- A data error met while planning. -/
def ofData : DataError → PlanningError
  | .saturated d l => .saturated d l
  | .invalidPlan r => .invalidPlan r
  | .aborted a => .aborted a
  | e => .invalidPlan e.message

end PlanningError

end LayerPipeline
