/-!
# Errors in data

What can be wrong with a value of the domain by itself.
-/

namespace LayerPipeline

/-- Why a computation has no answer at all. It is abandoned, and nothing is reported in words. -/
inductive Abort where
  /-- A counter or a product left the 64-bit range. -/
  | overflow
  /-- A range whose lower bound does not lie below its upper bound. -/
  | invertedBounds
deriving DecidableEq, Inhabited

/-- A value that the domain's own rules refuse. -/
inductive DataError where
  /-- A message that contradicts itself. -/
  | protocolViolation (reason : String)
  /-- An element type that is unknown or not wanted. -/
  | unsupportedDtype (what : String)
  /-- A device without capacity left; `load` is its load as text. -/
  | saturated (device load : String)
  | unknownDeviceKind (name : String)
  | invalidDescriptor (reason : String)
  | unknownStrategy (name : String)
  | invalidPlan (reason : String)
  | aborted (cause : Abort)
deriving DecidableEq, Inhabited

/-- The text of a saturation error. -/
def saturationText (device load : String) : String :=
  s!"device {device} is saturated (load {load})"

/-- What the error says. -/
def DataError.message : DataError → String
  | .protocolViolation r => "protocol violation: " ++ r
  | .unsupportedDtype w => "unsupported dtype: " ++ w
  | .saturated d l => saturationText d l
  | .unknownDeviceKind n => "unknown device type: " ++ n
  | .invalidDescriptor r => "invalid node descriptor: " ++ r
  | .unknownStrategy n => "unknown partition strategy: " ++ n
  | .invalidPlan r => "invalid plan: " ++ r
  | .aborted _ => "computation abandoned"

end LayerPipeline
