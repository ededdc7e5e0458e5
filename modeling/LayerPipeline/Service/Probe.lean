import LayerPipeline.Config
import LayerPipeline.Error.Service
import LayerPipeline.Text.Blank

/-!
# What the host offers

The memory that a host reports, and the capability of a node made from it and from the settings,
which always win.
-/

namespace LayerPipeline

/-- Memory of a host. -/
structure HostMemory (α : Type) where
  totalGb : α
  availableGb : α
deriving DecidableEq, Inhabited

/-- The two figures of a memory report, in kilobytes. -/
structure MemoryFigures where
  totalKb : Option Nat
  availableKb : Option Nat
deriving DecidableEq, Inhabited

namespace HostMemory

/-- The figure that a line sets, if it has one of the two keys. -/
def readLine (f : MemoryFigures) (line : String) : Except ServiceError MemoryFigures :=
  match Text.words line with
  | key :: value :: _ =>
    if key = "MemTotal:" || key = "MemAvailable:" then
      match Text.parseCount? value with
      | none =>
        .error (.probe ("expected integer kB value for " ++ key ++ ", got '" ++ value ++ "'"))
      | some kb =>
        .ok (if key = "MemTotal:" then { f with totalKb := some kb }
          else { f with availableKb := some kb })
    else .ok f
  | _ => .ok f

/-- The figures of the lines up to the first one that completes both. -/
def readLines (f : MemoryFigures) : List String → Except ServiceError MemoryFigures
  | [] => .ok f
  | line :: rest =>
    match readLine f line with
    | .error e => .error e
    | .ok f => if f.totalKb.isSome && f.availableKb.isSome then .ok f else readLines f rest

variable {α : Type} [Scalar α]

/-- The memory that a report describes. -/
def parse (text : String) : Except ServiceError (HostMemory α) :=
  match readLines ⟨none, none⟩ (Text.lines text) with
  | .error e => .error e
  | .ok f =>
    match f.totalKb, f.availableKb with
    | none, _ => .error (.probe "MemTotal not found")
    | _, none => .error (.probe "MemAvailable not found")
    | some total, some available =>
      let kbPerGb : α := 1024.0 * 1024.0
      .ok ⟨Scalar.ofNat total / kbPerGb, Scalar.ofNat (min available total) / kbPerGb⟩

end HostMemory

/-- What a probe can see of the host: its memory report, where that is kept, and its threads. -/
structure Host where
  memoryReport : Option String
  reportPath : String
  threads : Nat
deriving DecidableEq, Inhabited

namespace Host

variable {α : Type} [Scalar α]

/-- The device name of a node without an accelerator, or the kind of its accelerator. -/
def deviceName (host : Host) (kind : DeviceKind) : String :=
  match kind with
  | .cpu => "CPU (" ++ toString host.threads ++ " threads)"
  | k => k.name.map Char.toUpper

/-- Total and available memory: as configured, else as the host reports it. -/
def memory (host : Host) (config : LocalNodeConfig α) : Except ServiceError (α × α) :=
  match config.memoryGb with
  | some gb => .ok (gb, gb)
  | none =>
    match host.memoryReport.bind fun text => (HostMemory.parse text).toOption with
    | some m => .ok (m.totalGb, m.availableGb)
    | none =>
      .error (.probe ("cannot read " ++ host.reportPath ++ " and no memory_gb configured"))

/-- The capability of the local node. -/
def detect (host : Host) (config : LocalNodeConfig α) : Except ServiceError (Capability α) :=
  if config.nodeId.isEmpty then .error (.probe "node_id is not configured")
  else
    let kind := config.kind.getD .cpu
    let score := config.computeScore.getD (Scalar.ofNat host.threads)
    if !decide ((0.0 : α) < score) then
      .error (.probe ("compute_score must be positive, got " ++ Scalar.shortest score))
    else
      match host.memory config with
      | .error e => .error e
      | .ok (total, available) =>
        .ok { (Capability.basic config.nodeId kind).withMemory total available with
          deviceName := host.deviceName kind
          computeScore := score
          hasFp16 := config.hasFp16.getD kind.isGpu
          hasInt8 := true
          bandwidthMbps := config.bandwidthMbps
          latencyMs := 0.1 }

end Host

end LayerPipeline
