import LayerPipeline.Json.Reader
import LayerPipeline.Json.Writer
import LayerPipeline.Profile.Collector
import LayerPipeline.Text.Blank
import LayerPipeline.Wire.Codec

/-!
# Profile files

A profile is kept as text with one record per line.
-/

namespace LayerPipeline

namespace Collector

variable {α : Type} [Scalar α] [JsonCodec α]

/-- The lines of every record, layer by layer. -/
def exportText (c : Collector α) : String :=
  String.join <| c.history.flatMap fun h =>
    h.2.map fun r => (JsonCodec.write r).compact ++ "\n"

/-- The record on a line: none if the line is blank or names no layer. -/
def recordOfLine (line : String) : Except PlanningError (Option (LayerRecord α)) :=
  if line.toList.all Text.isBlank then .ok none
  else
    match (Json.parse? line).bind JsonCodec.read with
    | none => .error .malformedJson
    | some r => .ok (if (r : LayerRecord α).layerName.isEmpty then none else some r)

/-- The system's words for bytes that are no text. -/
def notTextReason : String := "stream did not contain valid UTF-8"

/-- Files the records of the lines in order, and counts them. A bad line ends the import; what came
before it stays. -/
def importLines (c : Collector α) (count : Nat) :
    List (List UInt8) → Except PlanningError Nat × Collector α
  | [] => (.ok count, c)
  | line :: rest =>
    match Wire.textOfBytes? line with
    | none => (.error (.io notTextReason), c)
    | some text =>
      match recordOfLine text with
      | .error e => (.error e, c)
      | .ok none => importLines c count rest
      | .ok (some r) => importLines (c.file r) (count + 1) rest

/-- Files the records of a profile. -/
def importBytes (c : Collector α) (bytes : List UInt8) : Except PlanningError Nat × Collector α :=
  importLines c 0 (Text.splitLines 10 13 [] bytes)

end Collector

end LayerPipeline
